import Mathlib.Data.List.Sort
import StarBase.Extract.Resolver
import StarBase.Index.Files

/-!
# The index database

The tables a sweep works on, with the foreign key from `frames` to `files` as part of the type:
no operation can leave a frame without its file.

* `FrameRow`, `KeywordRow`, `NamedRow` — rows of `frames`, `frame_keywords`, and of `cameras` and
  `filters`, of which only id and name matter here;
* `IndexDb` — the tables, with the associations `frame_tags` and `collection_frames`;
* `upsertFile`, `modifyFiles`, `rekeyFile`, `deleteFile`, `putFrame` — the statements on them;
* `contentKey` — the fingerprints of a file's frames in HDU order.

Columns that no modelled statement reads are left out.
-/

namespace StarBase

open Relational Extract

structure EquipmentIds where
  cameraId : Option ℕ := none
  rigId : Option ℕ := none
  filterId : Option ℕ := none
  siteId : Option ℕ := none
  deriving DecidableEq

structure FrameRow where
  id : ℕ
  fileId : ℕ
  hdu : ℕ
  fingerprint : Str
  cols : ResolvedFrame
  equip : EquipmentIds
  quarantineReason : Option Str
  flatSetId : Option ℕ
  deriving DecidableEq

/-- `UNIQUE KEY uk_frames_hdu (file_id, hdu)`. -/
def frameKeying : Keying FrameRow (ℕ × ℕ) where
  id := FrameRow.id
  key := fun f => (f.fileId, f.hdu)

structure KeywordRow where
  frameId : ℕ
  ord : ℕ
  keyword : Str
  value : Option Str
  comment : Option Str
  deriving DecidableEq

structure NamedRow where
  id : ℕ
  name : Str
  deriving DecidableEq

/-- `cameras` by model and `filters` by name, compared under the collation. -/
def nameKeying [Host] : Keying NamedRow Str where
  id := NamedRow.id
  key := fun r => Host.collate r.name

structure RigRow where
  id : ℕ
  cameraId : ℕ
  focalMin : ℚ
  focalMax : ℚ
  siteId : Option ℕ
  active : Bool
  deriving DecidableEq

structure SiteRow where
  id : ℕ
  utcOffsetH : ℚ
  isDefault : Bool
  deriving DecidableEq

/-- The tables that only the operator changes. -/
structure OperatorTables where
  cameraAliases : List (Str × ℕ) := []
  filterAliases : List (Str × ℕ) := []
  rigs : List RigRow := []
  sites : List SiteRow := []

structure IndexDb [Host] where
  files : Table fileKeying
  frames : Table frameKeying
  keywords : List KeywordRow
  cameras : Table nameKeying
  filters : Table nameKeying
  operator : OperatorTables
  frameTags : List (ℕ × ℕ)
  collectionFrames : List (ℕ × ℕ)
  /-- `fk_frames_file`. -/
  frames_fk : ∀ f ∈ frames.rows, f.fileId ∈ files.ids

namespace IndexDb

variable [Host]

/-- A database without a row in the indexed tables. -/
def blank (operator : OperatorTables) : IndexDb where
  files := Table.empty fileKeying
  frames := Table.empty frameKeying
  keywords := []
  cameras := Table.empty nameKeying
  filters := Table.empty nameKeying
  operator := operator
  frameTags := []
  collectionFrames := []
  frames_fk := by simp [Table.empty]

/-! ### Statements on `files` -/

/-- `INSERT INTO files ... ON DUPLICATE KEY UPDATE`. -/
def upsertFile (db : IndexDb) (k : ℕ × Str) (mk : RowMaker fileKeying k)
    (upd : RowUpdate fileKeying) : IndexDb :=
  { db with
    files := db.files.upsert k mk upd
    frames_fk := fun f hf => Table.mem_ids_upsert (db.frames_fk f hf) }

/-- `UPDATE files SET f WHERE p`, id and key untouched. -/
def modifyFiles (db : IndexDb) (p : FileRow → Bool) (f : RowUpdate fileKeying) : IndexDb :=
  { db with
    files := db.files.modify p f
    frames_fk := by
      rw [Table.ids_modify]
      exact db.frames_fk }

/-- `UPDATE files SET f WHERE id = i`, which may move the row to another path; refused when that
is taken. -/
def rekeyFile (db : IndexDb) (i : ℕ) (f : FileRow → FileRow) (hf : ∀ r, (f r).id = r.id) :
    Option IndexDb :=
  match h : db.files.rekey i f hf with
  | none => none
  | some files => some
    { db with
      files := files
      frames_fk := by
        rw [Table.ids_rekey h]
        exact db.frames_fk }

/-- `DELETE FROM files WHERE p`, with the rows of frames, header cards, tags and collections that
go with it. -/
def deleteFiles (db : IndexDb) (p : FileRow → Bool) : IndexDb :=
  let files := db.files.deleteWhere p
  let frames := db.frames.deleteWhere fun f => !(files.rows.any fun r => r.id = f.fileId)
  let gone := fun (i : ℕ) => !(frames.rows.any fun f => f.id = i)
  { db with
    files := files
    frames := frames
    keywords := db.keywords.filter fun k => !gone k.frameId
    frameTags := db.frameTags.filter fun t => !gone t.1
    collectionFrames := db.collectionFrames.filter fun c => !gone c.2
    frames_fk := by
      intro f hf
      have h := (Table.mem_deleteWhere.mp hf).2
      have hfile : ∃ r ∈ files.rows, r.id = f.fileId := by simpa using h
      exact Table.mem_ids.mpr hfile }

def deleteFile (db : IndexDb) (i : ℕ) : IndexDb := db.deleteFiles fun r => r.id = i

/-! ### Statements on `frames` and `frame_keywords` -/

/-- `INSERT INTO frames ... ON DUPLICATE KEY UPDATE` for a file that is there. -/
def upsertFrame (db : IndexDb) (fileId hdu : ℕ) (h : fileId ∈ db.files.ids)
    (mk : RowMaker frameKeying (fileId, hdu)) (upd : RowUpdate frameKeying) : IndexDb :=
  { db with
    frames := db.frames.upsert (fileId, hdu) mk upd
    frames_fk := by
      intro f hf
      rcases Table.mem_upsert hf with hold | ⟨g, hg, rfl⟩ | hnew
      · exact db.frames_fk f hold
      · have hk : (upd.apply g).fileId = g.fileId := congrArg Prod.fst (upd.key_apply g)
        rw [hk]
        exact db.frames_fk g hg
      · have hk : f.fileId = fileId := by
          rw [hnew]
          exact congrArg Prod.fst (mk.key_make _)
        rw [hk]
        exact h }

/-- `DELETE FROM frame_keywords WHERE frame_id = i` and the insertion of new cards. -/
def replaceKeywords (db : IndexDb) (frameId : ℕ) (cards : List KeywordRow) : IndexDb :=
  { db with keywords := (db.keywords.filter fun k => k.frameId ≠ frameId) ++ cards }

/-! ### Reading -/

/-- The frames of a file in HDU order. -/
def framesOf (db : IndexDb) (fileId : ℕ) : List FrameRow :=
  (db.frames.rows.filter fun f => f.fileId = fileId).insertionSort fun f g => f.hdu ≤ g.hdu

/-- The fingerprints of a file's frames in HDU order.  The program joins their hexadecimal texts,
each ended by a semicolon, and compares the results. -/
def contentKey (db : IndexDb) (fileId : ℕ) : List Str :=
  (db.framesOf fileId).map FrameRow.fingerprint

/-- The header cards of a frame in order. -/
def keywordsOf (db : IndexDb) (frameId : ℕ) : List KeywordRow :=
  db.keywords.filter fun k => k.frameId = frameId

end IndexDb

end StarBase
