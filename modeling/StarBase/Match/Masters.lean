import StarBase.Index.StoreSpec
import StarBase.Match.Rules

/-!
# Masters and the matcher

A master's kind is lost between the resolver and the matcher: the resolver calls every master
`master`, nothing records what it is a master of, and the matcher asks for exactly that.

* `NamesMaster` — a raw image type names a master of a calibration type;
* `resolveImageType_of_darkflatWord`, `resolveImageType_of_masterWord` — what the default mapping
  makes of it;
* `master_counted_iff` — **PROVED**: a stored master is counted exactly if it is one of dark flats
  that the mapping takes for a dark flat, and the rule's comparison survives the printed numbers.
-/

namespace StarBase.Match

open Relational Extract Api

/-! ### What a raw image type names -/

def hasWord (w : String) (raw : Str) : Bool := hasSubstring w.toList (lower raw)

/-- The words the default mapping knows a master by. -/
def MasterWord (raw : Str) : Prop :=
  hasWord "master" raw ∨ hasWord "integration" raw ∨ hasWord "stack" raw

/-- The words it knows a dark flat by. -/
def DarkflatWord (raw : Str) : Prop :=
  hasWord "flatdark" raw ∨ hasWord "dark flat" raw ∨ hasWord "darkflat" raw

instance (raw : Str) : Decidable (MasterWord raw) :=
  inferInstanceAs (Decidable (_ ∨ _ ∨ _))

instance (raw : Str) : Decidable (DarkflatWord raw) :=
  inferInstanceAs (Decidable (_ ∨ _ ∨ _))

/-- Whether the letters of a raw image type name the calibration type. -/
def CalType.named (t : CalType) (raw : Str) : Bool :=
  let letters := (lower raw).filter Char.isAlpha
  let darkflat := hasSubstring "darkflat".toList letters || hasSubstring "flatdark".toList letters
  match t with
  | .darkflat => darkflat
  | .dark => hasSubstring "dark".toList letters && !darkflat
  | .flat => hasSubstring "flat".toList letters && !darkflat
  | .bias => hasSubstring "bias".toList letters || hasSubstring "zero".toList letters

/-- A raw image type names a master of the calibration type. -/
def NamesMaster (t : CalType) (raw : Str) : Prop := MasterWord raw ∧ t.named raw = true

instance (t : CalType) (raw : Str) : Decidable (NamesMaster t raw) :=
  inferInstanceAs (Decidable (_ ∧ _))

section Resolve

variable [Host] {h : Hdu} {raw : Str}

/-- The first rule that matches decides: one of a group with a common value, after rules that do
not match. -/
theorem normalizeValue_of_group {m : HeaderMapping} {field v : Str} {before group after : List ValueRule}
    (hm : m.values.lookup field = some (before ++ (group ++ after)))
    (hbefore : ∀ r ∈ before, ruleMatches raw r = false) (hv : ∀ r ∈ group, r.normalized = v)
    (hr : ∃ r ∈ group, ruleMatches raw r = true) : normalizeValue m field raw = v := by
  unfold normalizeValue
  rw [hm]
  dsimp only
  rw [List.find?_append, List.find?_append, List.find?_eq_none.mpr fun r hr => by
    simp [hbefore r hr]]
  obtain ⟨r, hr, hmatch⟩ := hr
  obtain ⟨q, hq⟩ := Option.isSome_iff_exists.mp (List.find?_isSome.mpr ⟨r, hr, hmatch⟩)
  have hmem : q ∈ group := List.mem_of_find?_eq_some hq
  simp [hq, hv q hmem]

def darkflatRules : List ValueRule :=
  [ ⟨"flatdark".toList, "darkflat".toList, .contains⟩,
    ⟨"dark flat".toList, "darkflat".toList, .contains⟩,
    ⟨"darkflat".toList, "darkflat".toList, .contains⟩ ]

def masterRules : List ValueRule :=
  [ ⟨"Master Dark".toList, "master".toList, .exact⟩,
    ⟨"master".toList, "master".toList, .contains⟩,
    ⟨"integration".toList, "master".toList, .contains⟩,
    ⟨"stack".toList, "master".toList, .contains⟩ ]

theorem ruleMatches_darkflatRules :
    (∃ r ∈ darkflatRules, ruleMatches raw r = true) ↔ DarkflatWord raw := by
  simp only [darkflatRules, List.mem_cons, List.not_mem_nil, or_false, exists_eq_or_imp,
    exists_eq_left]
  rfl

theorem ruleMatches_masterRules (h : MasterWord raw) :
    ∃ r ∈ masterRules, ruleMatches raw r = true := by
  rcases h with h | h | h
  · exact ⟨⟨"master".toList, "master".toList, .contains⟩, by decide, h⟩
  · exact ⟨⟨"integration".toList, "master".toList, .contains⟩, by decide, h⟩
  · exact ⟨⟨"stack".toList, "master".toList, .contains⟩, by decide, h⟩

omit [Host] in
/-- The rules for dark flats come first, those for masters next. -/
theorem defaults_imageType : ∃ after, HeaderMapping.defaults.values.lookup "image_type".toList
    = some (darkflatRules ++ (masterRules ++ after)) :=
  ⟨_, rfl⟩

theorem resolveImageType_of_darkflatWord
    (hraw : resolveRaw h HeaderMapping.defaults "image_type".toList = some raw)
    (hd : DarkflatWord raw) : resolveImageType h HeaderMapping.defaults = .darkflat := by
  obtain ⟨after, hrules⟩ := defaults_imageType
  have hfirst : HeaderMapping.defaults.values.lookup "image_type".toList =
      some ([] ++ (darkflatRules ++ (masterRules ++ after))) := hrules
  have hnorm : normalizeValue HeaderMapping.defaults "image_type".toList raw = "darkflat".toList :=
    normalizeValue_of_group hfirst (by simp) (by decide) (ruleMatches_darkflatRules.mpr hd)
  unfold resolveImageType
  rw [hraw]
  dsimp only
  rw [hnorm]
  decide

theorem resolveImageType_of_masterWord
    (hraw : resolveRaw h HeaderMapping.defaults "image_type".toList = some raw)
    (hd : ¬ DarkflatWord raw) (hm : MasterWord raw) :
    resolveImageType h HeaderMapping.defaults = .master := by
  obtain ⟨after, hrules⟩ := defaults_imageType
  have hno : ∀ r ∈ darkflatRules, ruleMatches raw r = false := by
    intro r hr
    by_contra hne
    exact hd (ruleMatches_darkflatRules.mp ⟨r, hr, by simpa using hne⟩)
  have hnorm := normalizeValue_of_group (v := "master".toList) hrules hno (by decide)
    (ruleMatches_masterRules hm)
  unfold resolveImageType
  rw [hraw]
  dsimp only
  rw [hnorm]
  decide

theorem resolve_imageType {m : HeaderMapping} {site : SiteContext} {f : ResolvedFrame}
    (hf : resolve h m site = .ok f) : f.imageType = resolveImageType h m := by
  unfold resolve at hf
  cases hra : resolveCoord h m "ra".toList true with
  | error e =>
    rw [hra] at hf
    cases hf
  | ok ra =>
    cases hdec : resolveCoord h m "dec".toList false with
    | error e =>
      rw [hra, hdec] at hf
      cases hf
    | ok dec =>
      rw [hra, hdec] at hf
      cases hf
      rfl

end Resolve

/-! ### What the matcher counts -/

section Counted

variable [Host] {instant : Str → Option Micros} {db : EquipDb} {L : LightKey}
  {rule : CalibrationRule} {specs : List (Str × SpecKind)} {f : FrameRow}

/-- The frame is among those the rule counts for the light. -/
def Counted (instant : Str → Option Micros) (db : EquipDb) (L : LightKey) (rule : CalibrationRule)
    (f : FrameRow) : Prop :=
  ∃ r, matchRule instant db L rule = .ok r ∧ f ∈ r.counted

/-- The document of the rule has these specs. -/
def HasSpecs (rule : CalibrationRule) (specs : List (Str × SpecKind)) : Prop :=
  ∃ j, rule.matchJson = .ok j ∧ ruleSpecs j = .ok specs

/-- No flat set takes the rule's place. -/
def NoFlatSet (instant : Str → Option Micros) (db : EquipDb) (L : LightKey)
    (rule : CalibrationRule) : Prop :=
  rule.targetType = .flat → resolveFlatSet instant db L = none

theorem counted_iff (hspecs : HasSpecs rule specs) (hset : NoFlatSet instant db L rule) :
    Counted instant db L rule f ↔
      f ∈ db.frames.rows ∧ ruleWhere instant rule specs L f = true := by
  obtain ⟨j, hj, hs⟩ := hspecs
  have hnone : (if rule.targetType = .flat then resolveFlatSet instant db L else none) = none := by
    split
    · next h => exact hset h
    · rfl
  have hrun : matchRule instant db L rule = .ok ⟨rule.targetType, rule.name,
      db.frames.rows.filter (ruleWhere instant rule specs L),
      countWarning rule (db.frames.rows.filter (ruleWhere instant rule specs L)).length⟩ := by
    unfold matchRule
    rw [hj]
    dsimp only
    rw [hnone]
    dsimp only
    rw [hs]
    rfl
  unfold Counted
  rw [hrun]
  simp

/-- The light and the frame agree on every field of the rule, as the rule asks it of that field: the
values themselves, before any of them is printed. -/
def Agrees (specs : List (Str × SpecKind)) (L : LightKey) (f : FrameRow) : Prop :=
  ∀ s ∈ specs, fieldHolds id s.2 (lightValue L s.1) (column f s.1) = true

/-- Equal values agree, under every spec but a negative tolerance. -/
theorem agrees_of_eq (heq : ∀ s ∈ specs, lightValue L s.1 = column f s.1)
    (htol : ∀ s ∈ specs, ∀ t, s.2 = .tol t → 0 ≤ t)
    (hnum : ∀ s ∈ specs, ∀ v, column f s.1 = some v → v.number = v.dval) : Agrees specs L f := by
  intro s hs
  rw [heq s hs]
  cases hc : column f s.1 with
  | none => cases s.2 <;> rfl
  | some v =>
    have hv := hnum s hs v hc
    cases hk : s.2 with
    | tol t =>
      have ht := htol s hs t hk
      simp [fieldHolds, hv, ht]
    | exact => cases v <;> simp [fieldHolds, sqlEq]
    | exactNullOk => cases v <;> simp [fieldHolds, sqlEq]

/-- What the field compares is the same with the light's value and the tolerance as they are
printed. -/
def PrintKeeps (s : SpecKind) (light col : Option Value) : Prop :=
  match light, col, s with
  | some v, some c, .tol t => |c.number - trimNum v.dval| ≤ trimNum t
  | some (.num q), some _, _ => trimNum q = q
  | _, _, _ => True

/-- An equality of numbers survives exactly if the light's number does. -/
theorem sqlEq_trimNum_iff {c v : Value} (h : sqlEq id c v = true) :
    sqlEq trimNum c v = true ↔ PrintKeeps .exact (some v) (some c) := by
  cases v with
  | text s =>
    cases c with
    | num a => cases h
    | text t => exact iff_of_true h trivial
  | num q =>
    cases c with
    | text t => cases h
    | num a =>
      have ha : a = q := of_decide_eq_true h
      rw [ha]
      exact decide_eq_true_iff.trans eq_comm

theorem fieldHolds_trimNum_iff {s : SpecKind} {light col : Option Value}
    (h : fieldHolds id s light col = true) :
    fieldHolds trimNum s light col = true ↔ PrintKeeps s light col := by
  cases light with
  | none => exact iff_of_true (by cases s <;> exact h) trivial
  | some v =>
    cases col with
    | none => exact iff_of_true (by cases s <;> exact h) (by cases v <;> trivial)
    | some c =>
      cases s with
      | tol t => exact decide_eq_true_iff
      | exact => exact sqlEq_trimNum_iff h
      | exactNullOk =>
        have hsame : PrintKeeps .exactNullOk (some v) (some c) ↔ PrintKeeps .exact (some v) (some c) := by
          cases v <;> rfl
        exact (sqlEq_trimNum_iff h).trans hsame.symm

/-- A frame of the target type or not: the rest of the condition is agreement as printed. -/
theorem ruleWhere_iff (hagree : Agrees specs L f) (hage : withinAge instant rule L f = true) :
    ruleWhere instant rule specs L f = true ↔ isTarget rule.targetType f = true ∧
      ∀ s ∈ specs, PrintKeeps s.2 (lightValue L s.1) (column f s.1) := by
  unfold ruleWhere
  rw [hage, Bool.and_true, Bool.and_eq_true, List.all_eq_true]
  exact and_congr_right fun _ => forall₂_congr fun s hs => fieldHolds_trimNum_iff (hagree s hs)

omit [Host] in
/-- Nothing is a target as a master: `master_of` is never written. -/
theorem isTarget_iff {t : CalType} : isTarget t f = true ↔ f.cols.imageType = t.imageType := by
  simp [isTarget, masterOf]

theorem imageType_of_stored {ctx : StoreContext} {now : Micros} {info : FileInfo}
    {header : RawHeader} {s t : StoreState} {file : FileRow} {h : Hdu}
    (hs : storeFile ctx now info header s = (.ok (), t)) (hh : h ∈ header.imageHdus)
    (hfile : t.db.files.get info.key = some file)
    (hf : t.db.frames.get (file.id, h.index) = some f) :
    f.cols.imageType = resolveImageType h ctx.mapping := by
  obtain ⟨hfiles, hframes, -, -⟩ := storeFile_ok hs
  have hid : file = info.storedOver now s.db.files.next (s.db.files.get info.key) := by
    rw [hfiles, Table.get_upsert_self] at hfile
    exact (Option.some.inj hfile).symm
  obtain ⟨c, ids, i, hres, -, hget, -⟩ := hframes.written h hh
  rw [hid, hget] at hf
  have hcols : f.cols = c := by
    rw [← Option.some.inj hf]
    unfold storedOver
    cases s.db.frames.get _ <;> rfl
  rw [hcols]
  exact resolve_imageType hres

/-- **Masters and the matcher, exactly.**  After a file is stored under the default mapping, the frame
of an image HDU whose raw type names a master of the rule's target type is counted, for a light that
agrees with it within the age limit and without a flat set, exactly if the mapping takes it for a dark
flat and the printed numbers keep the comparison. -/
theorem master_counted_iff {ctx : StoreContext} {now : Micros} {info : FileInfo}
    {header : RawHeader} {s t : StoreState} {file : FileRow} {h : Hdu} {raw : Str}
    (hmap : ctx.mapping = HeaderMapping.defaults)
    (hs : storeFile ctx now info header s = (.ok (), t)) (hh : h ∈ header.imageHdus)
    (hraw : resolveRaw h ctx.mapping "image_type".toList = some raw)
    (hname : NamesMaster rule.targetType raw) (hfile : t.db.files.get info.key = some file)
    (hf : t.db.frames.get (file.id, h.index) = some f) (hdb : db.frames = t.db.frames)
    (hspecs : HasSpecs rule specs) (hset : NoFlatSet instant db L rule)
    (hagree : Agrees specs L f) (hage : withinAge instant rule L f = true) :
    Counted instant db L rule f ↔ (rule.targetType = .darkflat ∧ DarkflatWord raw) ∧
      ∀ s ∈ specs, PrintKeeps s.2 (lightValue L s.1) (column f s.1) := by
  have hmem : f ∈ db.frames.rows := by
    rw [hdb]
    exact Table.get_mem hf
  rw [counted_iff hspecs hset, and_iff_right hmem, ruleWhere_iff hagree hage, isTarget_iff,
    imageType_of_stored hs hh hfile hf]
  rw [hmap] at hraw ⊢
  refine and_congr_left fun _ => ?_
  by_cases hd : DarkflatWord raw
  · rw [resolveImageType_of_darkflatWord hraw hd, and_iff_left hd]
    cases rule.targetType <;> decide
  · rw [resolveImageType_of_masterWord hraw hd hname.1]
    refine iff_of_false ?_ fun h => hd h.2
    cases rule.targetType <;> decide

end Counted

/-! ### A master dark and a master dark flat -/

section Stored

attribute [local instance] plainHost

/-- An image of 300 s with the given `IMAGETYP`. -/
def masterHdu (raw : Str) : Hdu :=
  ⟨0, true, 16, 2, 1, 1, [⟨"IMAGETYP".toList, raw, []⟩, ⟨"EXPTIME".toList, "300".toList, []⟩]⟩

def masterHeader (raw : Str) : RawHeader := ⟨[masterHdu raw], List.nodup_singleton _⟩

def masterInfo : FileInfo :=
  ⟨1, "m.fits".toList, "m.fits".toList, "fits".toList, .fits, .calibration, none, none, none, true⟩

def masterContext : StoreContext := ⟨HeaderMapping.defaults, {}, {}⟩

/-- The state after the file is stored in an empty database. -/
def storedMaster (raw : Str) : StoreState :=
  (storeFile masterContext 0 masterInfo (masterHeader raw) ⟨IndexDb.blank {}, {}⟩).2

/-- Its frame, as resolved to the given type. -/
def masterFrame (raw : Str) (type : ImageType) : FrameRow :=
  (newFrame 1 (masterHdu raw)
    { imageType := type, exposureS := some (.fin 300), naxis1 := some 1, naxis2 := some 1 } {}).make 1

/-- The tables the matcher reads beside the frames: no rig and no flat set. -/
def withoutRigs (frames : Table frameKeying) (h : ∀ f ∈ frames.rows, f.equip.rigId = none) :
    EquipDb where
  frames := frames
  rigs := Table.empty rigKeying
  flatSets := Table.empty flatSetKeying
  pins := []
  nextPin := 1
  telescopes := Table.empty nameKeying
  cameraIds := []
  siteIds := []
  savedQueryIds := []
  frames_fk f hf r hr := by
    rw [h f hf] at hr
    cases hr
  flatSets_fk s hs := by cases hs
  pins_fk p hp := by cases hp

/-- `{"exposure_s": {"tol": 5}}` for a target type. -/
def exposureRule (t : CalType) : CalibrationRule :=
  ⟨t.text, t, .ok (.obj [("exposure_s".toList, .obj [("tol".toList, .int 5)])]), some 365, none⟩

def exposureSpecs : List (Str × SpecKind) := [("exposure_s".toList, .tol 5)]

theorem exposureRule_hasSpecs (t : CalType) : HasSpecs (exposureRule t) exposureSpecs :=
  ⟨_, rfl, rfl⟩

/-- A light of 300 s. -/
def longLight : LightKey := { exposureS := some 300 }

theorem longLight_agrees (raw : Str) (type : ImageType) :
    Agrees exposureSpecs longLight (masterFrame raw type) := by
  intro s hs
  rw [List.mem_singleton.mp hs]
  show decide (|storedDecimal 3 300 - 300| ≤ (5 : ℚ)) = true
  decide +kernel

/-- A master of dark flats is counted. -/
theorem master_darkflat_counted :
    Counted (fun _ => none) (withoutRigs (storedMaster "Master Dark Flat".toList).db.frames
      (by decide +kernel)) longLight (exposureRule .darkflat)
      (masterFrame "Master Dark Flat".toList .darkflat) := by
  have hstore : storeFile masterContext 0 masterInfo (masterHeader "Master Dark Flat".toList)
      ⟨IndexDb.blank {}, {}⟩ = (.ok (), storedMaster "Master Dark Flat".toList) :=
    Prod.ext (by decide +kernel) rfl
  have hraw : resolveRaw (masterHdu "Master Dark Flat".toList) masterContext.mapping
      "image_type".toList = some "Master Dark Flat".toList := by decide
  have hname : NamesMaster (exposureRule .darkflat).targetType "Master Dark Flat".toList := by
    decide
  have hfile : (storedMaster "Master Dark Flat".toList).db.files.get masterInfo.key
      = some ((masterInfo.newRow 0).make 1) := by decide +kernel
  have hframe : (storedMaster "Master Dark Flat".toList).db.frames.get (1, 0)
      = some (masterFrame "Master Dark Flat".toList .darkflat) := by decide +kernel
  refine (master_counted_iff rfl hstore (List.mem_singleton.mpr rfl) hraw hname hfile hframe rfl
    (exposureRule_hasSpecs _) (fun h => by cases h) (longLight_agrees _ _) rfl).mpr
    ⟨⟨rfl, by decide⟩, fun s hs => ?_⟩
  rw [List.mem_singleton.mp hs]
  show |storedDecimal 3 300 - trimNum 300| ≤ trimNum 5
  decide +kernel

/-- A master dark is not counted for a rule of dark frames. -/
theorem master_dark_not_counted :
    resolveRaw (masterHdu "Master Dark".toList) HeaderMapping.defaults "image_type".toList
        = some "Master Dark".toList ∧
      NamesMaster .dark "Master Dark".toList ∧
      (storeFile masterContext 0 masterInfo (masterHeader "Master Dark".toList)
        ⟨IndexDb.blank {}, {}⟩).1.isOk = true ∧
      (storedMaster "Master Dark".toList).db.frames.get (1, 0)
        = some (masterFrame "Master Dark".toList .master) ∧
      Agrees exposureSpecs longLight (masterFrame "Master Dark".toList .master) ∧
      ¬ Counted (fun _ => none) (withoutRigs (storedMaster "Master Dark".toList).db.frames
        (by decide +kernel)) longLight (exposureRule .dark)
        (masterFrame "Master Dark".toList .master) := by
  refine ⟨by decide +kernel, by decide +kernel, by decide +kernel, by decide +kernel,
    longLight_agrees _ _, ?_⟩
  rw [counted_iff (exposureRule_hasSpecs _) fun h => by cases h]
  exact fun h => absurd h.2 (by decide)

end Stored

end StarBase.Match
