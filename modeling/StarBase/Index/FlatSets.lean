import StarBase.Index.FrameStore

/-!
# Rigs, flat sets and pins

The tables behind the equipment routes, with the foreign keys the schema declares as part of the
type.  Two references have no foreign key: `frames.flat_set_id` and `rigs.active_flat_set_id`.

* `Rig`, `FlatSet`, `Pin`, `EquipDb` — the rows and the tables;
* `deleteRig`, `deleteFlatSet` — the deletions, with what the schema cascades them to;
* `NoDangling` — the two references name flat sets that exist, in every state the statements that
  keep it reach;
* `noDangling_deleteRig_iff` — **PROVED**: the deletion of a rig keeps it exactly if nothing that
  stays refers to a flat set of the rig.

Columns that no modelled statement reads are left out.
-/

namespace StarBase

open Relational Extract

/-! ### Rows -/

structure Rig where
  id : ℕ
  name : Str
  cameraId : ℕ
  telescopeId : Option ℕ
  siteId : Option ℕ
  focalMinMm : ℚ
  focalMaxMm : ℚ
  activeFlatSetId : Option ℕ
  active : Bool
  deriving DecidableEq

inductive FlatSource
  | inferred
  | header
  | manual
  deriving DecidableEq, Repr

structure FlatSet where
  id : ℕ
  rigId : ℕ
  filterId : Option ℕ
  label : Str
  source : FlatSource
  capturedNight : Option Str
  capturedStartUtc : Option Str
  capturedEndUtc : Option Str
  frameCount : ℕ
  validFrom : Option Str
  validTo : Option Str
  notes : Option Str
  deriving DecidableEq

/-- What a pin covers: the lights of a rig in one night, or those a saved query selects. -/
inductive PinScope
  | rigNight (rigId : ℕ) (sessionNight : Str)
  | savedQuery (savedQueryId : ℕ)
  deriving DecidableEq, Repr

def PinScope.rig : PinScope → Option ℕ
  | .rigNight i _ => some i
  | .savedQuery _ => none

structure Pin where
  id : ℕ
  flatSetId : ℕ
  scope : PinScope
  deriving DecidableEq, Repr

section Tables

variable [Host]

/-- `UNIQUE KEY uk_rigs_name (name)`. -/
def rigKeying : Keying Rig Str where
  id := Rig.id
  key := fun r => Host.collate r.name

/-- `UNIQUE KEY uk_flat_sets_rig_label (rig_id, label)`. -/
def flatSetKeying : Keying FlatSet (ℕ × Str) where
  id := FlatSet.id
  key := fun s => (s.rigId, Host.collate s.label)

/-- The tables of the equipment routes.  Of cameras, sites and saved queries only the ids matter
here. -/
structure EquipDb where
  frames : Table frameKeying
  rigs : Table rigKeying
  flatSets : Table flatSetKeying
  pins : List Pin
  nextPin : ℕ
  telescopes : Table nameKeying
  cameraIds : List ℕ
  siteIds : List ℕ
  savedQueryIds : List ℕ
  /-- `fk_frames_rig`. -/
  frames_fk : ∀ f ∈ frames.rows, ∀ r ∈ f.equip.rigId, r ∈ rigs.ids
  /-- `fk_flat_sets_rig`. -/
  flatSets_fk : ∀ s ∈ flatSets.rows, s.rigId ∈ rigs.ids
  /-- `fk_pin_set` and `fk_pin_rig`. -/
  pins_fk : ∀ p ∈ pins, p.flatSetId ∈ flatSets.ids ∧ ∀ r ∈ p.scope.rig, r ∈ rigs.ids

/-! ### Assignments -/

/-- `SET flat_set_id = v`. -/
def setFlatSet (v : Option ℕ) : RowUpdate frameKeying where
  apply f := { f with flatSetId := v }
  id_apply _ := rfl
  key_apply _ := rfl

/-- `SET rig_id = rig, site_id = site`, the site only if one is given. -/
def setRig (rig site : Option ℕ) : RowUpdate frameKeying where
  apply f := { f with equip := { f.equip with rigId := rig, siteId := site.or f.equip.siteId } }
  id_apply _ := rfl
  key_apply _ := rfl

/-- `SET site_id = site`. -/
def setSite (site : ℕ) : RowUpdate frameKeying where
  apply f := { f with equip := { f.equip with siteId := some site } }
  id_apply _ := rfl
  key_apply _ := rfl

/-- `SET active_flat_set_id = v`. -/
def setActiveFlatSet (v : Option ℕ) : RowUpdate rigKeying where
  apply r := { r with activeFlatSetId := v }
  id_apply _ := rfl
  key_apply _ := rfl

/-- `SET frame_count = n, captured_night = night`. -/
def setCounted (n : ℕ) (night : Option Str) : RowUpdate flatSetKeying where
  apply s := { s with frameCount := n, capturedNight := night }
  id_apply _ := rfl
  key_apply _ := rfl

/-- The server's rejection of a row whose UNIQUE key is taken. -/
def duplicateError : Thrown := .std "Duplicate entry".toList

/-- What a `DECIMAL(p,s)` column holds of a number written with six decimals. -/
def storedDecimal (s : ℕ) (q : ℚ) : ℚ := (roundHalfAway (sixDecimals q * 10 ^ s) : ℚ) / 10 ^ s

namespace EquipDb

/-! ### Statements on `frames` -/

/-- `UPDATE frames SET u WHERE p`, for an assignment that puts no rig in that is not there. -/
def modifyFrames (db : EquipDb) (p : FrameRow → Bool) (u : RowUpdate frameKeying)
    (h : ∀ f, ∀ r ∈ (u.apply f).equip.rigId, r ∈ f.equip.rigId ∨ r ∈ db.rigs.ids) : EquipDb :=
  { db with
    frames := db.frames.modify p u
    frames_fk := by
      intro f hf r hr
      rw [Table.modify_rows] at hf
      obtain ⟨g, hg, rfl⟩ := List.mem_map.mp hf
      split at hr
      · exact (h g r hr).elim (db.frames_fk g hg r) id
      · exact db.frames_fk g hg r hr }

/-- `UPDATE frames SET flat_set_id = v WHERE p`. -/
def assignFlatSet (db : EquipDb) (p : FrameRow → Bool) (v : Option ℕ) : EquipDb :=
  db.modifyFrames p (setFlatSet v) fun _ _ hr => Or.inl hr

/-- `UPDATE frames SET rig_id = NULL WHERE rig_id = i`. -/
def dropMembership (db : EquipDb) (i : ℕ) : EquipDb :=
  db.modifyFrames (fun f => f.equip.rigId = some i) (setRig none none) fun _ _ hr => by cases hr

/-- `UPDATE frames SET rig_id = i [, site_id = site] WHERE p`; the rig must be there if a row is
found. -/
def assignRig (p : FrameRow → Bool) (i : ℕ) (site : Option ℕ) (db : EquipDb) :
    Except Thrown EquipDb :=
  if h : i ∈ db.rigs.ids then
    .ok (db.modifyFrames p (setRig (some i) site) fun _ _ hr => by
      cases hr
      exact Or.inr h)
  else if db.frames.rows.any p then .error foreignKeyError
  else .ok db

/-- `UPDATE frames SET site_id = site WHERE rig_id = i`; the site must be there if a row is
found. -/
def stampSite (i site : ℕ) (db : EquipDb) : Except Thrown EquipDb :=
  if db.siteIds.contains site || !(db.frames.rows.any fun f => f.equip.rigId = some i) then
    .ok (db.modifyFrames (fun f => f.equip.rigId = some i) (setSite site) fun _ _ hr => Or.inl hr)
  else .error foreignKeyError

/-! ### Statements on `rigs` -/

/-- Whether the server takes a rig: its values fit and its references exist. -/
def rigAccepted (db : EquipDb) (r : Rig) : Except Thrown Unit :=
  if !(Host.fits 64 r.name && decimalFits 7 1 (some (.fin r.focalMinMm)) &&
      decimalFits 7 1 (some (.fin r.focalMaxMm))) then .error dataError
  else if !(db.cameraIds.contains r.cameraId && r.siteId.all db.siteIds.contains) then
    .error foreignKeyError
  else .ok ()

def newRig (name : Str) (camera : ℕ) (telescope site : Option ℕ) (fmin fmax : ℚ) :
    RowMaker rigKeying (Host.collate name) where
  make id :=
    { id := id
      name := name
      cameraId := camera
      telescopeId := telescope
      siteId := site
      focalMinMm := storedDecimal 1 fmin
      focalMaxMm := storedDecimal 1 fmax
      activeFlatSetId := none
      active := true }
  id_make _ := rfl
  key_make _ := rfl

/-- `INSERT INTO rigs`. -/
def insertRig (name : Str) (camera : ℕ) (telescope site : Option ℕ) (fmin fmax : ℚ)
    (db : EquipDb) : Except Thrown EquipDb :=
  let mk := newRig name camera telescope site fmin fmax
  match db.rigAccepted (mk.make 0), h : db.rigs.get (Host.collate name) with
  | .error e, _ => .error e
  | .ok _, some _ => .error duplicateError
  | .ok _, none => .ok
    { db with
      rigs := db.rigs.insertNew mk h
      frames_fk := fun f hf r hr => Table.mem_ids_insertNew h (db.frames_fk f hf r hr)
      flatSets_fk := fun s hs => Table.mem_ids_insertNew h (db.flatSets_fk s hs)
      pins_fk := fun p hp => ⟨(db.pins_fk p hp).1, fun r hr =>
        Table.mem_ids_insertNew h ((db.pins_fk p hp).2 r hr)⟩ }

/-- `UPDATE rigs SET f WHERE id = i`. -/
def updateRig (i : ℕ) (f : Rig → Rig) (hf : ∀ r, (f r).id = r.id) (db : EquipDb) :
    Except Thrown EquipDb :=
  match db.rigs.rows.find? fun r => r.id = i with
  | none => .ok db
  | some r =>
    match db.rigAccepted (f r), h : db.rigs.rekey i f hf with
    | .error e, _ => .error e
    | .ok _, none => .error duplicateError
    | .ok _, some rigs => .ok
      { db with
        rigs := rigs
        frames_fk := by rw [Table.ids_rekey h]; exact db.frames_fk
        flatSets_fk := by rw [Table.ids_rekey h]; exact db.flatSets_fk
        pins_fk := by rw [Table.ids_rekey h]; exact db.pins_fk }

/-- `UPDATE rigs SET active_flat_set_id = v WHERE p`. -/
def activate (db : EquipDb) (p : Rig → Bool) (v : Option ℕ) : EquipDb :=
  { db with
    rigs := db.rigs.modify p (setActiveFlatSet v)
    frames_fk := by rw [Table.ids_modify]; exact db.frames_fk
    flatSets_fk := by rw [Table.ids_modify]; exact db.flatSets_fk
    pins_fk := by rw [Table.ids_modify]; exact db.pins_fk }

/-- `DELETE FROM rigs WHERE id = i`: its frames lose their rig, its flat sets go, and with them
and it the pins. -/
def deleteRig (db : EquipDb) (i : ℕ) : EquipDb :=
  let rigs := db.rigs.deleteWhere fun r => r.id = i
  let flatSets := db.flatSets.deleteWhere fun s => s.rigId = i
  { db with
    frames := db.frames.modify (fun f => f.equip.rigId = some i) (setRig none none)
    rigs := rigs
    flatSets := flatSets
    pins := db.pins.filter fun p => flatSets.ids.contains p.flatSetId && p.scope.rig ≠ some i
    frames_fk := by
      intro f hf r hr
      obtain ⟨g, hg, rfl⟩ := List.mem_map.mp hf
      split at hr
      · cases hr
      · next hne =>
        obtain ⟨rig, hrig, rfl⟩ := Table.mem_ids.mp (db.frames_fk g hg r hr)
        exact Table.mem_ids.mpr ⟨rig, Table.mem_deleteWhere.mpr ⟨hrig, by
          have hi : rig.id ≠ i := fun hi => hne (decide_eq_true (hi ▸ hr))
          simpa using hi⟩, rfl⟩
    flatSets_fk := by
      intro s hs
      obtain ⟨hs, hne⟩ := Table.mem_deleteWhere.mp hs
      obtain ⟨rig, hrig, he⟩ := Table.mem_ids.mp (db.flatSets_fk s hs)
      exact Table.mem_ids.mpr ⟨rig, Table.mem_deleteWhere.mpr ⟨hrig, by
        have hi : rig.id = s.rigId := he
        simpa [hi] using hne⟩, he⟩
    pins_fk := by
      intro p hp
      obtain ⟨hp, hkeep⟩ := List.mem_filter.mp hp
      simp only [Bool.and_eq_true, List.contains_iff_mem, decide_eq_true_eq] at hkeep
      refine ⟨hkeep.1, fun r hr => ?_⟩
      obtain ⟨rig, hrig, he⟩ := Table.mem_ids.mp ((db.pins_fk p hp).2 r hr)
      exact Table.mem_ids.mpr ⟨rig, Table.mem_deleteWhere.mpr ⟨hrig, by
        have hi : rig.id = r := he
        have hri : r ≠ i := fun h => hkeep.2 (h ▸ hr)
        simpa [hi] using hri⟩, he⟩ }

/-! ### Statements on `flat_sets` and `light_flat_pins` -/

/-- Whether the server takes the texts of a flat set. -/
def flatSetAccepted (s : FlatSet) : Bool :=
  Host.fits 96 s.label && s.capturedStartUtc.all Host.isDatetime &&
    s.capturedEndUtc.all Host.isDatetime && s.validFrom.all Host.isDate &&
    s.validTo.all Host.isDate

/-- `INSERT INTO flat_sets`. -/
def insertFlatSet {k : ℕ × Str} (mk : RowMaker flatSetKeying k) (db : EquipDb) :
    Except Thrown EquipDb :=
  if flatSetAccepted (mk.make 0) = false then .error dataError
  else if hr : k.1 ∈ db.rigs.ids then
    match h : db.flatSets.get k with
    | some _ => .error duplicateError
    | none => .ok
      { db with
        flatSets := db.flatSets.insertNew mk h
        flatSets_fk := by
          intro s hs
          rcases List.mem_append.mp hs with hs | hs
          · exact db.flatSets_fk s hs
          · have hk : s.rigId = k.1 := by
              rw [List.mem_singleton.mp hs]
              exact congrArg Prod.fst (mk.key_make _)
            rw [hk]
            exact hr
        pins_fk := fun p hp => ⟨Table.mem_ids_insertNew h (db.pins_fk p hp).1, (db.pins_fk p hp).2⟩ }
  else .error foreignKeyError

/-- `UPDATE flat_sets SET frame_count = .., captured_night = .. WHERE id = i`. -/
def countFlatSet (db : EquipDb) (i n : ℕ) (night : Option Str) : EquipDb :=
  { db with
    flatSets := db.flatSets.modify (fun s => s.id = i) (setCounted n night)
    flatSets_fk := by
      intro s hs
      obtain ⟨t, ht, rfl⟩ := List.mem_map.mp hs
      split
      · exact db.flatSets_fk t ht
      · exact db.flatSets_fk t ht
    pins_fk := by rw [Table.ids_modify]; exact db.pins_fk }

/-- `UPDATE flat_sets SET f WHERE id = i`, for an assignment that leaves the rig alone. -/
def updateFlatSet (i : ℕ) (f : FlatSet → FlatSet) (hf : ∀ s, (f s).id = s.id)
    (hr : ∀ s, (f s).rigId = s.rigId) (db : EquipDb) : Except Thrown EquipDb :=
  match db.flatSets.rows.find? fun s => s.id = i with
  | none => .ok db
  | some s =>
    if flatSetAccepted (f s) = false then .error dataError
    else match h : db.flatSets.rekey i f hf with
      | none => .error duplicateError
      | some sets => .ok
        { db with
          flatSets := sets
          flatSets_fk := by
            intro s hs
            rw [(Table.rekey_eq_some_iff.mp h).1] at hs
            obtain ⟨t, ht, rfl⟩ := List.mem_map.mp hs
            split
            · rw [hr]
              exact db.flatSets_fk t ht
            · exact db.flatSets_fk t ht
          pins_fk := by rw [Table.ids_rekey h]; exact db.pins_fk }

/-- `DELETE FROM flat_sets WHERE id = i`; its pins go with it. -/
def deleteFlatSet (db : EquipDb) (i : ℕ) : EquipDb :=
  { db with
    flatSets := db.flatSets.deleteWhere fun s => s.id = i
    pins := db.pins.filter fun p => p.flatSetId ≠ i
    flatSets_fk := fun s hs => db.flatSets_fk s (Table.mem_deleteWhere.mp hs).1
    pins_fk := by
      intro p hp
      obtain ⟨hp, hne⟩ := List.mem_filter.mp hp
      obtain ⟨hset, hrig⟩ := db.pins_fk p hp
      refine ⟨?_, hrig⟩
      obtain ⟨s, hs, he⟩ := Table.mem_ids.mp hset
      exact Table.mem_ids.mpr ⟨s, Table.mem_deleteWhere.mpr ⟨hs, by
        have hi : s.id = p.flatSetId := he
        simpa [hi] using hne⟩, he⟩ }

/-- `DELETE FROM light_flat_pins WHERE p`. -/
def deletePins (db : EquipDb) (p : Pin → Bool) : EquipDb :=
  { db with
    pins := db.pins.filter fun x => !p x
    pins_fk := fun x hx => db.pins_fk x (List.mem_filter.mp hx).1 }

/-- Whether the server takes the scope of a pin: its night is a date and its saved query exists. -/
def scopeAccepted (db : EquipDb) : PinScope → Except Thrown Unit
  | .rigNight _ night => if Host.isDate night then .ok () else .error dataError
  | .savedQuery q => if db.savedQueryIds.contains q then .ok () else .error foreignKeyError

/-- `INSERT INTO light_flat_pins .. ON DUPLICATE KEY UPDATE flat_set_id = ..`; only the pins of a
rig and night have a UNIQUE key. -/
def putPin (flatSet : ℕ) (scope : PinScope) (db : EquipDb) : Except Thrown EquipDb :=
  match db.scopeAccepted scope with
  | .error e => .error e
  | .ok _ =>
    if h : flatSet ∈ db.flatSets.ids ∧ ∀ r ∈ scope.rig, r ∈ db.rigs.ids then
      if scope.rig.isSome ∧ ∃ p ∈ db.pins, p.scope = scope then .ok
        { db with
          pins := db.pins.map fun p =>
            if p.scope = scope then { p with flatSetId := flatSet } else p
          nextPin := db.nextPin + 1
          pins_fk := by
            intro p hp
            obtain ⟨q, hq, rfl⟩ := List.mem_map.mp hp
            split
            · exact ⟨h.1, (db.pins_fk q hq).2⟩
            · exact db.pins_fk q hq }
      else .ok
        { db with
          pins := db.pins ++ [⟨db.nextPin, flatSet, scope⟩]
          nextPin := db.nextPin + 1
          pins_fk := by
            intro p hp
            rcases List.mem_append.mp hp with hp | hp
            · exact db.pins_fk p hp
            · rw [List.mem_singleton.mp hp]
              exact h }
    else .error foreignKeyError

/-! ### Statements on `telescopes` -/

/-- `INSERT IGNORE INTO telescopes (name)`. -/
def insertTelescope (db : EquipDb) (name : Str) : EquipDb :=
  { db with telescopes := (intern 64 name db.telescopes).2 }

/-! ### References to flat sets -/

/-- A frame or a rig names the flat set. -/
def Refers (db : EquipDb) (i : ℕ) : Prop :=
  (∃ f ∈ db.frames.rows, f.flatSetId = some i) ∨ ∃ r ∈ db.rigs.rows, r.activeFlatSetId = some i

/-- Every flat set that is named exists. -/
def NoDangling (db : EquipDb) : Prop := ∀ i, db.Refers i → i ∈ db.flatSets.ids

variable {db : EquipDb}

theorem noDangling_iff : db.NoDangling ↔
    (∀ f ∈ db.frames.rows, ∀ i ∈ f.flatSetId, i ∈ db.flatSets.ids) ∧
      ∀ r ∈ db.rigs.rows, ∀ i ∈ r.activeFlatSetId, i ∈ db.flatSets.ids := by
  constructor
  · intro h
    exact ⟨fun f hf i hi => h i (Or.inl ⟨f, hf, hi⟩), fun r hr i hi => h i (Or.inr ⟨r, hr, hi⟩)⟩
  · intro h i hi
    rcases hi with ⟨f, hf, hi⟩ | ⟨r, hr, hi⟩
    · exact h.1 f hf i hi
    · exact h.2 r hr i hi

instance (db : EquipDb) : Decidable db.NoDangling := decidable_of_iff' _ noDangling_iff

omit [Host] in
/-- An update of frames that leaves `flat_set_id` alone keeps what they name. -/
theorem exists_modify_flatSetId {T : Table frameKeying} {p : FrameRow → Bool}
    {u : RowUpdate frameKeying} (hu : ∀ f, (u.apply f).flatSetId = f.flatSetId) {i : ℕ} :
    (∃ f ∈ (T.modify p u).rows, f.flatSetId = some i) ↔ ∃ f ∈ T.rows, f.flatSetId = some i := by
  have hsame : ∀ f, (if p f then u.apply f else f).flatSetId = f.flatSetId := by
    intro f
    split
    · exact hu f
    · rfl
  constructor
  · intro h
    obtain ⟨f, hf, hi⟩ := h
    obtain ⟨g, hg, rfl⟩ := List.mem_map.mp hf
    exact ⟨g, hg, (hsame g).symm.trans hi⟩
  · intro h
    obtain ⟨g, hg, hi⟩ := h
    exact ⟨_, List.mem_map_of_mem hg, (hsame g).trans hi⟩

theorem refers_modifyFrames {p : FrameRow → Bool} {u : RowUpdate frameKeying}
    {h : ∀ f, ∀ r ∈ (u.apply f).equip.rigId, r ∈ f.equip.rigId ∨ r ∈ db.rigs.ids}
    (hu : ∀ f, (u.apply f).flatSetId = f.flatSetId) {i : ℕ} :
    (db.modifyFrames p u h).Refers i ↔ db.Refers i :=
  or_congr (exists_modify_flatSetId hu) Iff.rfl

theorem refers_assignFlatSet {p : FrameRow → Bool} {v : Option ℕ} {i : ℕ}
    (h : (db.assignFlatSet p v).Refers i) : db.Refers i ∨ v = some i := by
  rcases h with ⟨f, hf, hi⟩ | h
  · obtain ⟨g, hg, rfl⟩ := List.mem_map.mp hf
    split at hi
    · exact Or.inr hi
    · exact Or.inl (Or.inl ⟨g, hg, hi⟩)
  · exact Or.inl (Or.inr h)

theorem noDangling_modifyFrames {p : FrameRow → Bool} {u : RowUpdate frameKeying}
    {h : ∀ f, ∀ r ∈ (u.apply f).equip.rigId, r ∈ f.equip.rigId ∨ r ∈ db.rigs.ids}
    (hu : ∀ f, (u.apply f).flatSetId = f.flatSetId) (hdb : db.NoDangling) :
    (db.modifyFrames p u h).NoDangling :=
  fun i hi => hdb i ((refers_modifyFrames hu).mp hi)

theorem noDangling_assignFlatSet {p : FrameRow → Bool} {v : Option ℕ} (hdb : db.NoDangling)
    (hv : ∀ i ∈ v, i ∈ db.flatSets.ids) : (db.assignFlatSet p v).NoDangling := by
  intro i hi
  rcases refers_assignFlatSet hi with h | h
  · exact hdb i h
  · exact hv i h

theorem noDangling_dropMembership (hdb : db.NoDangling) (i : ℕ) :
    (db.dropMembership i).NoDangling :=
  noDangling_modifyFrames (fun _ => rfl) hdb

theorem noDangling_assignRig {t : EquipDb} {p : FrameRow → Bool} {i : ℕ} {site : Option ℕ}
    (hdb : db.NoDangling) (h : assignRig p i site db = .ok t) : t.NoDangling := by
  unfold assignRig at h
  split at h
  · cases h
    exact noDangling_modifyFrames (fun _ => rfl) hdb
  · split at h
    · cases h
    · cases h
      exact hdb

theorem noDangling_stampSite {t : EquipDb} {i site : ℕ} (hdb : db.NoDangling)
    (h : stampSite i site db = .ok t) : t.NoDangling := by
  unfold stampSite at h
  split at h
  · cases h
    exact noDangling_modifyFrames (fun _ => rfl) hdb
  · cases h

theorem noDangling_insertRig {t : EquipDb} {name : Str} {camera : ℕ} {tel site : Option ℕ}
    {fmin fmax : ℚ} (hdb : db.NoDangling)
    (h : insertRig name camera tel site fmin fmax db = .ok t) : t.NoDangling := by
  unfold insertRig at h
  dsimp only at h
  split at h
  · cases h
  · cases h
  · cases h
    intro i hi
    refine hdb i (hi.imp_right fun hr => ?_)
    obtain ⟨r, hr, hi⟩ := hr
    rcases List.mem_append.mp hr with hr | hr
    · exact ⟨r, hr, hi⟩
    · rw [List.mem_singleton.mp hr] at hi
      cases hi

/-- An update of a rig keeps the references sound if the set it makes active exists. -/
theorem noDangling_updateRig {t : EquipDb} {i : ℕ} {f : Rig → Rig} {hf : ∀ r, (f r).id = r.id}
    (hdb : db.NoDangling)
    (hact : ∀ r, ∀ j ∈ (f r).activeFlatSetId, j ∈ r.activeFlatSetId ∨ j ∈ db.flatSets.ids)
    (h : updateRig i f hf db = .ok t) : t.NoDangling := by
  unfold updateRig at h
  split at h
  · cases h
    exact hdb
  · split at h
    · cases h
    · cases h
    · next hrekey =>
      cases h
      intro j hj
      rcases hj with hj | ⟨r, hr, hj⟩
      · exact hdb j (Or.inl hj)
      · rw [(Table.rekey_eq_some_iff.mp hrekey).1] at hr
        obtain ⟨q, hq, rfl⟩ := List.mem_map.mp hr
        split at hj
        · rcases hact q j hj with hj | hj
          · exact hdb j (Or.inr ⟨q, hq, hj⟩)
          · exact hj
        · exact hdb j (Or.inr ⟨q, hq, hj⟩)

theorem noDangling_activate {p : Rig → Bool} {v : Option ℕ} (hdb : db.NoDangling)
    (hv : ∀ i ∈ v, i ∈ db.flatSets.ids) : (db.activate p v).NoDangling := by
  intro i hi
  rcases hi with hi | ⟨r, hr, hi⟩
  · exact hdb i (Or.inl hi)
  · obtain ⟨q, hq, rfl⟩ := List.mem_map.mp hr
    split at hi
    · exact hv i hi
    · exact hdb i (Or.inr ⟨q, hq, hi⟩)

theorem noDangling_insertFlatSet {t : EquipDb} {k : ℕ × Str} {mk : RowMaker flatSetKeying k}
    (hdb : db.NoDangling) (h : insertFlatSet mk db = .ok t) :
    t.NoDangling ∧ db.flatSets.next ∈ t.flatSets.ids := by
  unfold insertFlatSet at h
  split at h
  · cases h
  · split at h
    · split at h
      · cases h
      · next hfree =>
        cases h
        exact ⟨fun i hi => Table.mem_ids_insertNew hfree (hdb i hi), Table.next_mem_insertNew hfree⟩
    · cases h

theorem noDangling_countFlatSet (hdb : db.NoDangling) (i n : ℕ) (night : Option Str) :
    (db.countFlatSet i n night).NoDangling := by
  intro j hj
  show j ∈ (db.flatSets.modify _ _).ids
  rw [Table.ids_modify]
  exact hdb j hj

theorem noDangling_updateFlatSet {t : EquipDb} {i : ℕ} {f : FlatSet → FlatSet}
    {hf : ∀ s, (f s).id = s.id} {hr : ∀ s, (f s).rigId = s.rigId} (hdb : db.NoDangling)
    (h : updateFlatSet i f hf hr db = .ok t) : t.NoDangling := by
  unfold updateFlatSet at h
  split at h
  · cases h
    exact hdb
  · split at h
    · cases h
    · split at h
      · cases h
      · next hrekey =>
        cases h
        intro j hj
        show j ∈ Table.ids _
        rw [Table.ids_rekey hrekey]
        exact hdb j hj

/-- A flat set that nothing names can go. -/
theorem noDangling_deleteFlatSet {i : ℕ} (hdb : db.NoDangling) (hi : ¬ db.Refers i) :
    (db.deleteFlatSet i).NoDangling := by
  intro j hj
  obtain ⟨s, hs, he⟩ := Table.mem_ids.mp (hdb j hj)
  refine Table.mem_ids.mpr ⟨s, Table.mem_deleteWhere.mpr ⟨hs, ?_⟩, he⟩
  have hid : s.id = j := he
  have hne : j ≠ i := fun h => hi (h ▸ hj)
  simpa [hid] using hne

theorem noDangling_putPin {t : EquipDb} {flatSet : ℕ} {scope : PinScope} (hdb : db.NoDangling)
    (h : putPin flatSet scope db = .ok t) : t.NoDangling := by
  unfold putPin at h
  split at h
  · cases h
  · split at h
    · split at h
      · cases h
        exact hdb
      · cases h
        exact hdb
    · cases h

/-- Nothing that outlives rig `i` names a flat set of it: no frame does, and no other rig. -/
def SetsUnused (db : EquipDb) (i : ℕ) : Prop :=
  ∀ s ∈ db.flatSets.rows, s.rigId = i →
    (∀ f ∈ db.frames.rows, f.flatSetId ≠ some s.id) ∧
      ∀ r ∈ db.rigs.rows, r.id ≠ i → r.activeFlatSetId ≠ some s.id

instance (db : EquipDb) (i : ℕ) : Decidable (db.SetsUnused i) :=
  inferInstanceAs (Decidable (∀ s ∈ db.flatSets.rows, s.rigId = i →
    (∀ f ∈ db.frames.rows, f.flatSetId ≠ some s.id) ∧
      ∀ r ∈ db.rigs.rows, r.id ≠ i → r.activeFlatSetId ≠ some s.id))

theorem setsUnused_dropMembership {i j : ℕ} :
    (db.dropMembership j).SetsUnused i ↔ db.SetsUnused i := by
  refine forall₃_congr fun s _ _ => and_congr_left fun _ => ?_
  have h := exists_modify_flatSetId (T := db.frames) (p := fun f => f.equip.rigId = some j)
    (u := setRig none none) (fun _ => rfl) (i := s.id)
  constructor
  · intro hall f hf he
    obtain ⟨g, hg, hgi⟩ := h.mpr ⟨f, hf, he⟩
    exact hall g hg hgi
  · intro hall f hf he
    obtain ⟨g, hg, hgi⟩ := h.mp ⟨f, hf, he⟩
    exact hall g hg hgi

/-- What is named after the deletion of rig `i`: what frames and other rigs named before it. -/
theorem refers_deleteRig {i j : ℕ} :
    (db.deleteRig i).Refers j ↔ (∃ f ∈ db.frames.rows, f.flatSetId = some j) ∨
      ∃ r ∈ db.rigs.rows, r.id ≠ i ∧ r.activeFlatSetId = some j := by
  refine or_congr (exists_modify_flatSetId fun _ => rfl) ?_
  show (∃ r ∈ (db.rigs.deleteWhere _).rows, _) ↔ _
  simp only [Table.mem_deleteWhere, decide_eq_false_iff_not]
  constructor
  · intro h
    obtain ⟨r, ⟨hr, hi⟩, hj⟩ := h
    exact ⟨r, hr, hi, hj⟩
  · intro h
    obtain ⟨r, hr, hi, hj⟩ := h
    exact ⟨r, ⟨hr, hi⟩, hj⟩

/-- **The deletion of a rig.**  Its flat sets go with it, and nothing clears what names them. -/
theorem noDangling_deleteRig_iff (hdb : db.NoDangling) (i : ℕ) :
    (db.deleteRig i).NoDangling ↔ db.SetsUnused i := by
  constructor
  · intro h s hs hsi
    have hgone : ¬ (db.deleteRig i).Refers s.id := by
      intro hr
      obtain ⟨s', hs', he⟩ := Table.mem_ids.mp (h _ hr)
      obtain ⟨hs', hne⟩ := Table.mem_deleteWhere.mp hs'
      rw [db.flatSets.eq_of_id hs' hs he] at hne
      simp [hsi] at hne
    rw [refers_deleteRig, not_or] at hgone
    exact ⟨fun f hf he => hgone.1 ⟨f, hf, he⟩, fun r hr hne he => hgone.2 ⟨r, hr, hne, he⟩⟩
  · intro h j hj
    rw [refers_deleteRig] at hj
    obtain ⟨s, hs, rfl⟩ := Table.mem_ids.mp (hdb j (hj.imp_right fun ⟨r, hr, _, he⟩ => ⟨r, hr, he⟩))
    refine Table.mem_ids.mpr ⟨s, Table.mem_deleteWhere.mpr ⟨hs, ?_⟩, rfl⟩
    have hother : s.rigId ≠ i := by
      intro hsi
      obtain ⟨hf, hr⟩ := h s hs hsi
      rcases hj with ⟨f, hfm, he⟩ | ⟨r, hrm, hne, he⟩
      · exact hf f hfm he
      · exact hr r hrm hne he
    simpa using hother

end EquipDb

end Tables

end StarBase
