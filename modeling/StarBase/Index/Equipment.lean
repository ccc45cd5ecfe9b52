import StarBase.Index.Db

/-!
# Equipment ids

A frame's raw equipment strings become registry ids: camera and filter through aliases and names,
created on first sighting, rig and site through the operator's rigs.  Each worker keeps its own
cache of the camera and filter lookups over one shared snapshot of the registry.

* `EquipmentRegistry.load` — the snapshot taken before a sweep;
* `resolveCamera`, `resolveFilter`, `resolveEquipment` — the lookups, with the caches and the
  tables they leave.
-/

namespace StarBase

open Relational Extract

/-! ### The registry snapshot -/

structure EquipmentRegistry where
  camerasByModel : List (Str × ℕ) := []
  cameraAliases : List (Str × ℕ) := []
  filtersByName : List (Str × ℕ) := []
  filterAliases : List (Str × ℕ) := []
  rigs : List RigRow := []
  defaultSiteId : Option ℕ := none
  defaultSiteOffsetH : ℚ := 0

/-- `ORDER BY is_default DESC, id`. -/
def siteBefore (a b : SiteRow) : Prop :=
  (a.isDefault = true ∧ b.isDefault = false) ∨ (a.isDefault = b.isDefault ∧ a.id ≤ b.id)

instance : DecidableRel siteBefore := fun a b => by
  unfold siteBefore
  infer_instance

/-- The names of a table in lower case; a later row of one name replaces an earlier one. -/
def byLowerName [Host] (T : Table nameKeying) : List (Str × ℕ) :=
  (T.rows.map fun r => (lower r.name, r.id)).reverse

def EquipmentRegistry.load [Host] (db : IndexDb) : EquipmentRegistry where
  camerasByModel := byLowerName db.cameras
  cameraAliases := db.operator.cameraAliases
  filtersByName := byLowerName db.filters
  filterAliases := db.operator.filterAliases
  rigs := db.operator.rigs.filter RigRow.active
  defaultSiteId := ((db.operator.sites.insertionSort siteBefore).head?).map SiteRow.id
  defaultSiteOffsetH := (((db.operator.sites.insertionSort siteBefore).head?).map
    SiteRow.utcOffsetH).getD 0

/-! ### Lookups -/

/-- A worker's cached lookups, by lowercased raw string; `none` is a string without an id. -/
structure Caches where
  camera : List (Str × Option ℕ) := []
  filter : List (Str × Option ℕ) := []
  deriving DecidableEq

/-- The pattern `ASI\s?(\d{3,4})`, case-insensitive, at the start of a string. -/
def baseModelAt (s : Str) : Option Str :=
  if lower (s.take 3) = "asi".toList then
    let rest := match s.drop 3 with
      | c :: cs => if isSpaceChar c then cs else c :: cs
      | [] => []
    let digits := (rest.takeWhile Char.isDigit).take 4
    if digits.length < 3 then none else some ("ASI".toList ++ digits)
  else none

/-- The canonical camera model in an `INSTRUME` value; empty if there is none. -/
def baseModel : Str → Str
  | [] => []
  | c :: cs => (baseModelAt (c :: cs)).getD (baseModel cs)

section Lookup

variable [Host]

/-- The row `INSERT IGNORE` adds for a name. -/
def newNamed (width : ℕ) (name : Str) :
    RowMaker nameKeying (Host.collate (Host.truncate width name)) where
  make id := ⟨id, Host.truncate width name⟩
  id_make _ := rfl
  key_make _ := rfl

/-- `INSERT IGNORE` of a name, then its id read back. -/
def intern (width : ℕ) (name : Str) (T : Table nameKeying) : Option ℕ × Table nameKeying :=
  let T' := T.upsert _ (newNamed width name) ⟨id, fun _ => rfl, fun _ => rfl⟩
  ((T'.get (Host.collate name)).map NamedRow.id, T')

/-- The id of a camera the caches do not know, and the `cameras` table it leaves. -/
def lookupCamera (reg : EquipmentRegistry) (raw : Str) (T : Table nameKeying) :
    Option ℕ × Table nameKeying :=
  match reg.cameraAliases.find? fun a => hasSubstring (lower a.1) (lower raw) with
  | some a => (some a.2, T)
  | none =>
    let model := baseModel raw
    if model = [] then (none, T)
    else match reg.camerasByModel.lookup (lower model) with
      | some i => (some i, T)
      | none => intern 64 model T

/-- The id of a filter the caches do not know, and the `filters` table it leaves. -/
def lookupFilter (reg : EquipmentRegistry) (raw : Str) (T : Table nameKeying) :
    Option ℕ × Table nameKeying :=
  match reg.filterAliases.find? fun a => lower raw = lower a.1 with
  | some a => (some a.2, T)
  | none =>
    match reg.filtersByName.lookup (lower raw) with
    | some i => (some i, T)
    | none => intern 32 raw T

/-- The database and a worker's caches: what a store transaction works on. -/
structure StoreState where
  db : IndexDb
  caches : Caches

def resolveCamera (reg : EquipmentRegistry) (raw : Str) (s : StoreState) :
    Option ℕ × StoreState :=
  match s.caches.camera.lookup (lower raw) with
  | some found => (found, s)
  | none =>
    let r := lookupCamera reg raw s.db.cameras
    (r.1,
      { db := { s.db with cameras := r.2 }
        caches := { s.caches with camera := (lower raw, r.1) :: s.caches.camera } })

def resolveFilter (reg : EquipmentRegistry) (raw : Str) (s : StoreState) :
    Option ℕ × StoreState :=
  if raw = [] then (none, s)
  else match s.caches.filter.lookup (lower raw) with
    | some found => (found, s)
    | none =>
      let r := lookupFilter reg raw s.db.filters
      (r.1,
        { db := { s.db with filters := r.2 }
          caches := { s.caches with filter := (lower raw, r.1) :: s.caches.filter } })

/-- `focal_min <= focal <= focal_max`. -/
def inFocalRange (rig : RigRow) (focal : Dbl) : Bool :=
  match focal with
  | .fin q => decide (rig.focalMin ≤ q) && decide (q ≤ rig.focalMax)
  | _ => false

/-- The first rig of a camera whose focal range holds the focal length. -/
def matchRig (reg : EquipmentRegistry) (camera : Option ℕ) (focal : Option Dbl) :
    Option RigRow :=
  match camera, focal with
  | some cam, some f => reg.rigs.find? fun rig => rig.cameraId = cam && inFocalRange rig f
  | _, _ => none

/-- An optional lookup. -/
def lookupIf (look : Str → StoreState → Option ℕ × StoreState) (raw : Option Str)
    (s : StoreState) : Option ℕ × StoreState :=
  match raw with
  | some r => look r s
  | none => (none, s)

/-- Every id of one resolved frame. -/
def resolveEquipment (reg : EquipmentRegistry) (f : ResolvedFrame) (s : StoreState) :
    EquipmentIds × StoreState :=
  let cam := lookupIf (resolveCamera reg) f.instrumeRaw s
  let filt := lookupIf (resolveFilter reg) f.filterRaw cam.2
  let rig := matchRig reg cam.1 f.focalLenMm
  ( { cameraId := cam.1
      rigId := rig.map RigRow.id
      filterId := filt.1
      siteId := (rig.bind RigRow.siteId).orElse fun _ => reg.defaultSiteId }, filt.2)

end Lookup

end StarBase
