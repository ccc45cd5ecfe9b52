import StarBase.Index.Equipment

/-!
# Storing a file's header

`storeFile` writes one file's header in one transaction: the `files` row, one `frames` row for each
image HDU, and that frame's header cards.  An exception rolls the transaction back; the
auto-increment counters and the worker's caches keep what it did to them.

* `FileInfo.accepted`, `columnsAccepted`, `cardsAccepted` — what the server takes;
* `storeHdu`, `storeHdus`, `storeBody` — the statements of the transaction;
* `storeFile` — the transaction.

A statement is its effect on the tables; how many characters a column holds of a text is a parameter of
the server.
-/

namespace StarBase

open Relational Extract Rounding

structure FileInfo where
  rootId : ℕ
  relPath : Str
  filename : Str
  ext : Str
  format : Format
  bucket : Bucket
  sizeBytes : Option Int
  mtimeUtc : Option Micros
  inode : Option Int
  caseSensitive : Bool
  deriving DecidableEq

/-! ### What the server takes -/

/-- `std::to_string` of a double: six decimals, a tie to the even one. -/
def sixDecimals (q : ℚ) : ℚ := (roundHalfEven (q * 1000000) : ℚ) / 1000000

/-- Whether a value fits a `DECIMAL(p,s)` column, which rounds a tie away from zero. -/
def decimalFits (p s : ℕ) (v : Option Dbl) : Bool :=
  match v with
  | none => true
  | some (.fin q) => decide (|roundHalfAway (sixDecimals q * 10 ^ s)| < 10 ^ p)
  | some _ => false

def tinyFits (v : Option Int) : Bool :=
  match v with
  | none => true
  | some n => decide (-128 ≤ n) && decide (n ≤ 127)

section Accept

variable [Host]

def textFits (n : ℕ) (v : Option Str) : Bool :=
  match v with
  | none => true
  | some s => Host.fits n s

/-- Whether a value is one of an `ENUM` column's. -/
def enumFits (values : List Str) (v : Option Str) : Bool :=
  match v with
  | none => true
  | some s => values.any fun x => Host.collate x = Host.collate s

/-- Whether the server takes the columns of a frame. -/
def columnsAccepted (f : ResolvedFrame) : Bool :=
  textFits 128 f.object && textFits 64 f.objectCanonical && decimalFits 9 6 f.raDeg &&
    decimalFits 9 6 f.decDeg && f.dateObsUtc.all Host.isDatetime && f.sessionNight.all Host.isDate &&
    decimalFits 10 3 f.exposureS && textFits 32 f.filterRaw && textFits 128 f.instrumeRaw &&
    textFits 128 f.telescopeRaw && decimalFits 7 1 f.focalLenMm && tinyFits f.binx &&
    tinyFits f.biny && decimalFits 5 2 f.ccdTempC && decimalFits 5 2 f.setTempC &&
    decimalFits 6 3 f.airmass && decimalFits 6 3 f.sqmMagArcsec2 && textFits 32 f.sqmSensor &&
    f.sqmTimeUtc.all Host.isDatetime && enumFits ["east".toList, "west".toList] f.pierSide &&
    enumFits ["top-down".toList, "bottom-up".toList] f.rowOrder

/-- A column value, or `NULL` for the empty string, cut to `n` bytes. -/
def cutOrNull (n : ℕ) (s : Str) : Option Str := if s = [] then none else some (s.take n)

def cardRow (frameId ord : ℕ) (c : Card) : KeywordRow :=
  ⟨frameId, ord, c.keyword.take 72, cutOrNull 256 c.value, cutOrNull 256 c.comment⟩

/-- The rows of a frame's cards, numbered in order. -/
def cardRows (frameId : ℕ) (cards : List Card) : List KeywordRow :=
  cards.mapIdx fun ord c => cardRow frameId ord c

/-- Whether the server takes the cards of a header; their number must fit a `SMALLINT`. -/
def cardsAccepted (cards : List Card) : Bool :=
  decide (cards.length ≤ 32768) && cards.all fun c =>
    Host.fits 72 (c.keyword.take 72) && textFits 256 (cutOrNull 256 c.value) &&
      textFits 256 (cutOrNull 256 c.comment)

/-- Instants a `DATETIME` can hold. -/
def datetimeFits (t : Option Micros) : Bool :=
  match t with
  | none => true
  | some t => decide (-62167219200000000 ≤ t) && decide (t < 253402300800000000)

def FileInfo.accepted (info : FileInfo) : Bool :=
  Host.fits 1024 info.relPath && Host.fits 255 info.filename && Host.fits 16 info.ext &&
    datetimeFits info.mtimeUtc

end Accept

/-! ### The `files` row -/

/-- The path that is hashed, case-folded on a file system that does not distinguish case. -/
def hashPath (caseSensitive : Bool) (relPath : Str) : Str :=
  if caseSensitive then relPath else lower relPath

/-- The server's rejection of a value. -/
def dataError : Thrown := .std "Data rejected by the server".toList

/-- The server's rejection of a reference to a row that is not there. -/
def foreignKeyError : Thrown := .std "Cannot add or update a child row".toList

section Store

variable [Host]

def FileInfo.key (info : FileInfo) : ℕ × Str :=
  (info.rootId, Host.md5 (hashPath info.caseSensitive info.relPath))

/-- The row of a file stored for the first time at `now`. -/
def FileInfo.newRow (info : FileInfo) (now : Micros) : RowMaker fileKeying info.key where
  make id :=
    { id := id
      rootId := info.rootId
      relPath := info.relPath
      relPathHash := info.key.2
      filename := info.filename
      ext := if info.ext = [] then none else some info.ext
      format := info.format
      bucket := info.bucket
      sizeBytes := info.sizeBytes
      mtimeUtc := info.mtimeUtc
      inode := info.inode
      status := .ok
      error := none
      firstSeenUtc := now
      lastSeenUtc := some now
      lastIndexedUtc := some (wholeSecond now * 1000000) }
  id_make _ := rfl
  key_make _ := rfl

/-- The update of a file that is known: all columns but `first_seen_utc`. -/
def FileInfo.storedRow (info : FileInfo) (now : Micros) : RowUpdate fileKeying where
  apply r :=
    { r with
      relPath := info.relPath
      filename := info.filename
      ext := if info.ext = [] then none else some info.ext
      format := info.format
      bucket := info.bucket
      sizeBytes := info.sizeBytes
      mtimeUtc := info.mtimeUtc
      inode := info.inode
      status := .ok
      error := none
      lastSeenUtc := some now
      lastIndexedUtc := some (wholeSecond now * 1000000) }
  id_apply _ := rfl
  key_apply _ := rfl

/-! ### The `frames` rows -/

/-- A frame with no date or of no known type is flagged. -/
def quarantineReason (f : ResolvedFrame) : Option Str :=
  if f.hasDate = false then some "no-dateobs".toList
  else if f.imageType = .unknown then some "unknown-type".toList
  else none

def newFrame (fileId : ℕ) (h : Hdu) (f : ResolvedFrame) (ids : EquipmentIds) :
    RowMaker frameKeying (fileId, h.index) where
  make id :=
    { id := id
      fileId := fileId
      hdu := h.index
      fingerprint := fingerprint h
      cols := f
      equip := ids
      quarantineReason := quarantineReason f
      flatSetId := none }
  id_make _ := rfl
  key_make _ := rfl

/-- The update of a frame that is known: everything but its association with a flat set. -/
def storedFrame (h : Hdu) (f : ResolvedFrame) (ids : EquipmentIds) : RowUpdate frameKeying where
  apply r :=
    { r with
      fingerprint := fingerprint h
      cols := f
      equip := ids
      quarantineReason := quarantineReason f }
  id_apply _ := rfl
  key_apply _ := rfl

/-- Every id refers to a row. -/
def equipmentExists (db : IndexDb) (ids : EquipmentIds) : Bool :=
  ids.cameraId.all (fun i => db.cameras.ids.contains i) &&
    ids.filterId.all (fun i => db.filters.ids.contains i) &&
    ids.rigId.all (fun i => db.operator.rigs.any fun r => r.id = i) &&
    ids.siteId.all (fun i => db.operator.sites.any fun s => s.id = i)

/-- The upsert of one frame, with the checks the server makes. -/
def IndexDb.putFrame (db : IndexDb) (fileId : ℕ) (h : Hdu) (f : ResolvedFrame)
    (ids : EquipmentIds) : Except Thrown IndexDb :=
  if columnsAccepted f = false then .error dataError
  else if hf : fileId ∈ db.files.ids then
    if equipmentExists db ids = false then .error foreignKeyError
    else .ok (db.upsertFrame fileId h.index hf (newFrame fileId h f ids) (storedFrame h f ids))
  else .error foreignKeyError

/-- The header cards of one frame, in place of those it had. -/
def IndexDb.putCards (db : IndexDb) (frameId : ℕ) (cards : List Card) : Except Thrown IndexDb :=
  if cardsAccepted cards = false then .error dataError
  else .ok (db.replaceKeywords frameId (cardRows frameId cards))

/-! ### The transaction -/

/-- What a sweep's stores share: the mapping, the site and the registry snapshot. -/
structure StoreContext where
  mapping : HeaderMapping
  site : SiteContext
  registry : EquipmentRegistry

/-- One image HDU: resolve, look the equipment up, write the frame and its cards.  An exception
leaves what was done before it. -/
def storeHdu (ctx : StoreContext) (fileId : ℕ) (h : Hdu) (s : StoreState) :
    Except Thrown Unit × StoreState :=
  match resolve h ctx.mapping ctx.site with
  | .error e => (.error e, s)
  | .ok f =>
    let r := resolveEquipment ctx.registry f s
    match r.2.db.putFrame fileId h f r.1 with
    | .error e => (.error e, r.2)
    | .ok db =>
      match db.frames.get (fileId, h.index) with
      | none => (.error (.std "store_file: could not read back frame id".toList), { r.2 with db := db })
      | some frame =>
        match db.putCards frame.id h.cards with
        | .error e => (.error e, { r.2 with db := db })
        | .ok db' => (.ok (), { r.2 with db := db' })

def storeHdus (ctx : StoreContext) (fileId : ℕ) : List Hdu → StoreState →
    Except Thrown Unit × StoreState
  | [], s => (.ok (), s)
  | h :: hs, s =>
    match storeHdu ctx fileId h s with
    | (.ok _, s') => storeHdus ctx fileId hs s'
    | (.error e, s') => (.error e, s')

/-- The statements between `START TRANSACTION` and `COMMIT`. -/
def storeBody (ctx : StoreContext) (now : Micros) (info : FileInfo) (header : RawHeader)
    (s : StoreState) : Except Thrown Unit × StoreState :=
  if info.accepted = false then (.error dataError, s)
  else
    let s₁ := { s with
      db := s.db.upsertFile info.key (info.newRow now) (info.storedRow now) }
    match s₁.db.files.get info.key with
    | none => (.error (.std "store_file: could not read back file id".toList), s₁)
    | some row => storeHdus ctx row.id header.imageHdus s₁

/-- Roll back from `t` to `db`: the rows are as before, the counters stay moved. -/
def IndexDb.rollback (db t : IndexDb) : IndexDb :=
  { db with
    files := db.files.bump t.files.next
    frames := db.frames.bump t.frames.next
    cameras := db.cameras.bump t.cameras.next
    filters := db.filters.bump t.filters.next
    frames_fk := db.frames_fk }

/-- One transaction: the file with its frames and cards, or an exception and nothing of them. -/
def storeFile (ctx : StoreContext) (now : Micros) (info : FileInfo) (header : RawHeader)
    (s : StoreState) : Except Thrown Unit × StoreState :=
  match storeBody ctx now info header s with
  | (.ok _, t) => (.ok (), t)
  | (.error e, t) => (.error e, { t with db := s.db.rollback t.db })

end Store

end StarBase
