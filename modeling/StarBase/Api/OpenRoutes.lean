import StarBase.Api.Calibration
import StarBase.Query.Browse

/-!
# The routes without a gate

Every route that anybody may call, as the statements it sends and the answer it makes of their rows;
`GET /queries/:id/paths`, which also writes, is apart.

* `ReadRoute` — the routes, with what their paths match;
* `Process` — what the answers take from the running process and its machine;
* `status`, `frames`, `postQuery`, ... — the routes;
* `reading` — all of them by route;
* `reading_readOnly` — **PROVED**: whatever is asked, and whatever fails, no table and no file is
  changed.

Left out are the headers of the answers and the order of their members.
-/

namespace StarBase.Api

open Statements Query Extract

/-- The digits of a path. -/
abbrev PathNumber := { s : Str // s ≠ [] ∧ ∀ c ∈ s, c.isDigit = true }

/-- The routes without a gate that only read, `other` for files and unknown paths. -/
inductive ReadRoute
  | status
  | facets (field : Str)
  | roots
  | frames
  | frame (id : PathNumber)
  | query
  | queries
  | calibration (id : PathNumber)
  | jobs
  | job (id : PathNumber)
  | launcher (id : PathNumber)
  | summary
  | scanStatus
  | tags
  | collections
  | collection (id : PathNumber)
  | db
  | me
  | objects
  | settings
  | interfaces
  | other (path : Str)
  deriving DecidableEq, Repr

/-! ### The process -/

/-- `ScanState`, with the time since the scan began. -/
structure ScanProgress where
  active : Bool
  finished : Bool
  root : Str
  totalRoots : Int
  doneRoots : Int
  seen : Int
  added : Int
  updated : Int
  skipped : Int
  settling : Int
  errored : Int
  frames : Int
  sidecars : Int
  results : List Json
  elapsedMs : Int

/-- The listener's address. -/
structure Listener where
  bind : Str
  port : Int
  tls : Bool
  deriving DecidableEq

/-- What the answers take from the running process and its machine. -/
structure Process where
  version : Str
  database : Str
  token : Str
  now : Int
  listener : Listener
  canApply : Bool
  sesameEnabled : Bool
  scan : ScanProgress
  /-- The IPv4 addresses of the machine but `127.0.0.1`, each with its interface. -/
  addresses : List (Str × Str)
  /-- The files under `web_root`. -/
  webFile : Str → Option Str
  /-- `json::parse`. -/
  parse : Str → Except Str Json

/-! ### Texts -/

/-- The columns of a listing of frames. -/
def frameColumns : List String :=
  ["frame_id", "abs_path", "filename", "image_type", "object", "filter", "session_night",
    "date_obs_utc", "exposure_s", "gain", "rig", "camera", "site", "sqm_mag_arcsec2", "file_status"]

/-- `add_eq`. -/
def addEqClause (req : Request) (param column : String) : List Part :=
  match req.params param.toList with
  | none => []
  | some v => [.fixed " AND ", .columns [column.toList], .fixed " = ", .quoted v]

/-- The filters of `GET /frames`.  Object search is catalog-aware: a value is expanded to all its
equivalent designations. -/
def frameFilters (req : Request) : List Part :=
  .fixed " WHERE 1=1" ::
    ((match req.params "object".toList with
      | none => []
      | some v => .fixed " AND object_canonical IN (" ::
          (quotedList (Names.designations v) ++ [.fixed ")"])) ++
    (addEqClause req "image_type" "image_type" ++ (addEqClause req "filter" "filter" ++
      (addEqClause req "night" "session_night" ++ (addEqClause req "rig" "rig" ++
        (addEqClause req "camera" "camera" ++ addEqClause req "root" "root_label"))))))

/-- The condition of `POST /query`, without the missing files if they are hidden. -/
def effectiveWhere (cond : Cond) (hideMissing : Bool) : List Part :=
  if hideMissing then [.fixed "(", .condition cond, .fixed ") AND file_status <> 'missing'"]
  else [.condition cond]

/-- The fields the filter used that the view has, and the columns with those that were not there. -/
def queryColumns (viewcols named : List Str) : List Str × List Str :=
  named.foldl
    (fun s f =>
      if viewcols.contains f then (s.1 ++ [f], if s.2.contains f then s.2 else s.2 ++ [f])
      else s)
    ([], frameColumns.map String.toList)

/-- `get<double>` of a number of the answer. -/
def jsonDouble (q : ℚ) : Json := .float (decide (q < 0)) q.num.natAbs q.den

def candidateJson (c : Candidate) : Json :=
  object [("frame_id", .int c.frameId), ("image_type", .str c.imageType),
    ("is_master", .bool c.isMaster), ("filename", .str c.filename), ("abs_path", .str c.absPath),
    ("session_night", .str c.sessionNight), ("date_obs_utc", .str c.dateObsUtc),
    ("score", jsonDouble c.score), ("reason", .str c.reason)]

/-- The group of one rule; a warning only if there is one. -/
def matchJson (m : MatchResult) : Json :=
  object ([("target_type", .str m.targetType), ("rule", .str m.ruleName), ("total", .int m.total)] ++
    (if m.warning = [] then [] else [("warning", .str m.warning)]) ++
    [("candidates", .arr (m.candidates.map candidateJson))])

/-- A running or finished scan is shown with its numbers. -/
def scanJson (p : ScanProgress) : Json :=
  object ([("active", .bool p.active), ("finished", .bool p.finished), ("root", .str p.root),
      ("done_roots", .int p.doneRoots), ("total_roots", .int p.totalRoots)] ++
    (if p.active || p.finished then
      [("seen", .int p.seen), ("added", .int p.added), ("updated", .int p.updated),
        ("unchanged", .int p.skipped), ("settling", .int p.settling), ("error", .int p.errored),
        ("frames", .int p.frames), ("sidecars", .int p.sidecars), ("results", .arr p.results)]
    else []) ++
    (if p.active then [("elapsed_ms", .int p.elapsedMs)] else []))

def listenerJson (l : Listener) : Json :=
  object [("bind", .str l.bind), ("port", .int l.port), ("tls", .bool l.tls)]

/-- `atoi`. -/
def atoi (s : Str) : Int :=
  match scanInteger s with
  | none => 0
  | some (n, _) => storedInt n

section Routes

variable [Host] {W : Type} (srv : Server W) (proc : Process)

/-- A compiled value, or the exception: a `QueryError` is a `std::exception`. -/
def liftCompile {α : Type} : Compile α → Route W α
  | .ok a => pure a
  | .error (.query what) => throw (.std what)
  | .error (.other e) => throw e

/-! ### Whole tables -/

/-- A route that lists the rows of one statement. -/
def listing (sql : List Part) (cols : List String) : Route W Response :=
  caught do
    connect
    let rows ← send srv sql
    pure (sendJson (rowsToJson rows cols) 200)

def roots : Route W Response :=
  listing srv
    [.fixed "SELECT id, label, path, enabled, writable, case_sensitive, fs_type, watch_mode, ",
      .fixed "scan_interval_s, settle_seconds, ignore_globs, file_count, last_scan_status, ",
      .fixed "DATE_FORMAT(last_scan_end,'%Y-%m-%dT%H:%i:%sZ'), last_scan_error FROM roots ORDER BY label"]
    ["id", "label", "path", "enabled", "writable", "case_sensitive", "fs_type", "watch_mode",
      "scan_interval_s", "settle_seconds", "ignore_globs", "file_count", "last_scan_status",
      "last_scan_end", "last_scan_error"]

def queries : Route W Response :=
  listing srv
    [.fixed "SELECT id, name, description, filter_json, sort_json, last_count, ",
      .fixed "DATE_FORMAT(last_run_at,'%Y-%m-%dT%H:%i:%sZ') FROM saved_queries ORDER BY name"]
    ["id", "name", "description", "filter_json", "sort_json", "last_count", "last_run_at"]

def jobs : Route W Response :=
  listing srv
    [.fixed "SELECT id, type, status, dry_run, total_items, done_items, failed_items, ",
      .fixed "DATE_FORMAT(created_at,'%Y-%m-%dT%H:%i:%sZ') FROM jobs ORDER BY id DESC LIMIT 100"]
    ["id", "type", "status", "dry_run", "total", "done", "failed", "created_at"]

def tags : Route W Response :=
  listing srv
    [.fixed "SELECT t.id, t.name, t.color, t.description, ",
      .fixed "(SELECT COUNT(*) FROM frame_tags ft WHERE ft.tag_id = t.id) AS n FROM tags t ORDER BY t.name"]
    ["id", "name", "color", "description", "count"]

def collections : Route W Response :=
  listing srv
    [.fixed "SELECT c.id, c.name, c.description, ",
      .fixed "(SELECT COUNT(*) FROM collection_frames cf WHERE cf.collection_id = c.id) AS n, ",
      .fixed "DATE_FORMAT(c.updated_at,'%Y-%m-%dT%H:%i:%sZ') FROM collections c ORDER BY c.name"]
    ["id", "name", "description", "count", "updated_at"]

/-- `GET /summary`: objects roll up by their canonical name, unless nights or filters are asked
for. -/
def summary (req : Request) : Route W Response :=
  let by_ := (req.params "by".toList).getD "object".toList
  let group := if by_ = "night".toList then "session_night"
    else if by_ = "filter".toList then "filter" else "object_canonical"
  let cond : List Part := if by_ = "night".toList ∨ by_ = "filter".toList then []
    else [.fixed " WHERE object_canonical IS NOT NULL AND object_canonical <> ''"]
  listing srv
    ([.fixed "SELECT COALESCE(", .columns [group.toList],
      .fixed ",'(none)') AS label, image_type, COUNT(*) AS n, ",
      .fixed "ROUND(SUM(exposure_s)/3600, 2) AS hours FROM frames"] ++ cond ++
      [.fixed " GROUP BY ", .columns [group.toList], .fixed ", image_type ORDER BY n DESC LIMIT 500"])
    ["label", "image_type", "count", "hours"]

/-! ### Status and schema -/

/-- `schema_version()`, with `table_exists`. -/
def schemaVersion : Route W Int := do
  let found ← send srv
    [.fixed "SELECT 1 FROM information_schema.tables WHERE table_schema = DATABASE() ",
      .fixed "AND table_name = ", .quoted "schema_version".toList, .fixed " LIMIT 1"]
  if found = [] then pure 0
  else do
    let rows ← send srv [.fixed "SELECT COALESCE(MAX(version), 0) FROM schema_version"]
    pure ((firstCell rows).elim 0 atoi)

/-- A count. -/
def scalar (sql : List Part) : Route W Int := do
  let rows ← send srv sql
  liftE (countOf rows)

def status : Route W Response :=
  caught do
    connect
    let schema ← schemaVersion srv
    let roots ← scalar srv [.fixed "SELECT COUNT(*) FROM roots"]
    let files ← scalar srv [.fixed "SELECT COUNT(*) FROM files"]
    let frames ← scalar srv [.fixed "SELECT COUNT(*) FROM frames"]
    let objects ← scalar srv
      [.fixed "SELECT COUNT(DISTINCT object_canonical) FROM frames ",
        .fixed "WHERE object_canonical IS NOT NULL AND object_canonical <> ''"]
    let nights ← scalar srv [.fixed "SELECT COUNT(DISTINCT session_night) FROM frames"]
    let errors ← scalar srv [.fixed "SELECT COUNT(*) FROM files WHERE status='error'"]
    pure (sendJson (object [("version", .str proc.version), ("server", .str srv.version),
      ("schema_version", .int schema), ("roots", .int roots), ("files", .int files),
      ("frames", .int frames), ("objects", .int objects), ("nights", .int nights),
      ("errors", .int errors)]) 200)

/-- The rows of a table; zero for one that cannot be read. -/
def tableCount (name : Str) : Route W Int :=
  tryCatch (scalar srv [.fixed "SELECT COUNT(*) FROM ", .name name]) fun _ => pure 0

def db : Route W Response :=
  caught do
    connect
    let schema ← schemaVersion srv
    let meta_ ← send srv
      [.fixed "SELECT table_name, ROUND(data_length/1048576,3), ROUND(index_length/1048576,3) ",
        .fixed "FROM information_schema.tables WHERE table_schema = DATABASE() ",
        .fixed "AND table_type = 'BASE TABLE' ORDER BY table_name"]
    let counted ← meta_.mapM fun r => do
      let n ← tableCount srv ((Row.col r 0).getD [])
      pure (n, object [("name", .str ((Row.col r 0).getD [])), ("rows", .int n),
        ("data_mb", cell r 1), ("index_mb", cell r 2)])
    let files ← send srv
      [.fixed "SELECT status, COUNT(*) FROM files GROUP BY status ORDER BY status"]
    let views ← send srv
      [.fixed "SELECT table_name FROM information_schema.views ",
        .fixed "WHERE table_schema = DATABASE() ORDER BY table_name"]
    pure (sendJson (object [("schema_version", .int schema), ("server", .str srv.version),
      ("database", .str proc.database), ("tables", .arr (counted.map Prod.snd)),
      ("total_rows", .int (counted.map Prod.fst).sum),
      ("file_status", rowsToJson files ["status", "count"]),
      ("views", .arr (views.map fun r => cell r 0))]) 200)

/-! ### Frames -/

def facets (field : Str) : Route W Response :=
  caught
    (if field ≠ "rig".toList ∧ field ≠ "camera".toList ∧ field ≠ "filter".toList ∧
        field ≠ "object".toList then pure (sendError 404 "no such facet".toList)
    else do
      connect
      let col := Part.name (if field = "object".toList then "object_canonical".toList else field)
      let rows ← send srv [.fixed "SELECT DISTINCT ", col, .fixed " FROM v_frames WHERE ", col,
        .fixed " IS NOT NULL AND ", col, .fixed " <> '' ORDER BY ", col]
      pure (sendJson (.arr (rows.filterMap fun r => (Row.col r 0).map Json.str)) 200))

/-- The part of a listing behind its condition. -/
def pageOf (order : List Part) (limit offset : Int) : List Part :=
  .fixed " ORDER BY " :: (order ++ [.fixed " LIMIT ", .int limit, .fixed " OFFSET ", .int offset])

/-- The count of the hidden frames; none is asked for where none is hidden. -/
def hiddenCount (hide : Bool) (sql : List Part) : Route W Int :=
  if hide then scalar srv sql else pure 0

/-- `GET /frames`. -/
def frames (req : Request) : Route W Response :=
  caught do
    connect
    let limit := qint (req.params "limit".toList) 50 1 500
    let offset := qint (req.params "offset".toList) 0 0 100000000
    let includeMissing := decide (req.params "include_missing".toList = some "1".toList)
    let filters := frameFilters req
    let cond := filters ++ if includeMissing then [] else [.fixed " AND file_status <> 'missing'"]
    let total ← scalar srv (.fixed "SELECT COUNT(*) FROM v_frames" :: cond)
    let hidden ← hiddenCount srv (!includeMissing) (.fixed "SELECT COUNT(*) FROM v_frames" ::
      (filters ++ [.fixed " AND file_status = 'missing'"]))
    let rows ← send srv
      (.fixed "SELECT frame_id, abs_path, filename, image_type, object, filter, " ::
        .fixed "session_night, date_obs_utc, exposure_s, gain, rig, camera, site, " ::
        .fixed "sqm_mag_arcsec2, file_status FROM v_frames" ::
        (cond ++ pageOf [.fixed "date_obs_utc DESC"] limit offset))
    pure (sendJson (object [("total", .int total), ("missing_hidden", .int hidden),
      ("limit", .int limit), ("offset", .int offset), ("frames", rowsToJson rows frameColumns)]) 200)

/-- `GET /frames/:id`: the row of the view, keyed by the view's columns, the header, and what belongs
to the frame. -/
def frame (id : PathNumber) : Route W Response :=
  caught do
    connect
    let rows ← send srv
      [.fixed "SELECT * FROM v_frames WHERE frame_id = ", .number id.val, .fixed " LIMIT 1"]
    match rows.head? with
    | none => pure (sendError 404 "no such frame".toList)
    | some row => do
      let meta_ ← send srv
        [.fixed "SELECT column_name FROM information_schema.columns WHERE table_schema = ",
          .fixed "DATABASE() AND table_name = 'v_frames' ORDER BY ordinal_position"]
      let members := (meta_.take row.length).mapIdx fun i m => ((Row.col m 0).getD [], cell row i)
      let kw ← send srv
        [.fixed "SELECT keyword, value, comment FROM frame_keywords WHERE frame_id = ",
          .number id.val, .fixed " ORDER BY ord"]
      let arts ← send srv
        [.fixed "SELECT kind, filename, rel_path, size_bytes, ",
          .fixed "DATE_FORMAT(mtime_utc,'%Y-%m-%dT%H:%i:%sZ') FROM artifacts WHERE frame_id = ",
          .number id.val, .fixed " ORDER BY filename"]
      let tg ← send srv
        [.fixed "SELECT t.id, t.name, t.color FROM frame_tags ft ",
          .fixed "JOIN tags t ON t.id = ft.tag_id WHERE ft.frame_id = ",
          .number id.val, .fixed " ORDER BY t.name"]
      let cl ← send srv
        [.fixed "SELECT c.id, c.name FROM collection_frames cf ",
          .fixed "JOIN collections c ON c.id = cf.collection_id WHERE cf.frame_id = ",
          .number id.val, .fixed " ORDER BY c.name"]
      pure (sendJson (.obj (members ++
        [("keywords".toList, rowsToJson kw ["keyword", "value", "comment"]),
          ("artifacts".toList, rowsToJson arts ["kind", "filename", "rel_path", "size_bytes", "mtime"]),
          ("tags".toList, rowsToJson tg ["id", "name", "color"]),
          ("collections".toList, rowsToJson cl ["id", "name"])])) 200)

/-- `POST /query` on a document: the condition and the order are compiled first. -/
def queryDocument (body filter : Json) (cond : Cond) (keys : List SortKey) : Route W Response := do
  let limitArg ← liftCompile (valueLong body "limit".toList 50)
  let offsetArg ← liftCompile (valueLong body "offset".toList 0)
  let limit := max 1 (min 500 limitArg)
  let offset := max 0 offsetArg
  let named ← liftE (filterFields filter)
  let includeMissing ← liftE (body.valueBool "include_missing".toList false)
  let hide := !includeMissing && !named.contains "file_status".toList
  let effective := effectiveWhere cond hide
  let total ← scalar srv (.fixed "SELECT COUNT(*) FROM v_frames WHERE " :: effective)
  let hidden ← hiddenCount srv hide [.fixed "SELECT COUNT(*) FROM v_frames WHERE (",
    .condition cond, .fixed ") AND file_status = 'missing'"]
  let view ← send srv
    [.fixed "SELECT column_name FROM information_schema.columns WHERE ",
      .fixed "table_schema = DATABASE() AND table_name = 'v_frames'"]
  let (fields, cols) := queryColumns (view.filterMap fun r => Row.col r 0) named
  let rows ← send srv
    (.fixed "SELECT " :: .columns cols :: .fixed " FROM v_frames WHERE " ::
      (effective ++ pageOf [.sorting keys] limit offset))
  pure (sendJson (object [("total", .int total), ("missing_hidden", .int hidden),
    ("limit", .int limit), ("offset", .int offset), ("where", .str (text srv.session effective)),
    ("query_fields", .arr (fields.map Json.str)),
    ("frames", .arr (rows.map fun r => .obj (cols.mapIdx fun i c => (c, cell r i))))]) 200)

/-- The clauses at the end of `POST /query`. -/
def caughtBody (m : Route W Response) : Route W Response :=
  tryCatch m fun
    | .json what => pure (sendError 400 ("invalid JSON body: ".toList ++ what))
    | .std what => pure (sendError 500 what)

/-- What is compiled goes on, a `QueryError` is the caller's fault. -/
def compiled {α : Type} (c : Compile α) (next : α → Route W Response) : Route W Response :=
  match c with
  | .ok a => next a
  | .error (.query what) => pure (sendError 400 what)
  | .error (.other e) => throw e

def postQuery (req : Request) : Route W Response :=
  caughtBody do
    connect
    let body ← if req.bodyEmpty then pure (.obj []) else parseBody req
    let filter ← liftE (body.value .ok "filter".toList .null)
    compiled (compileFilter filter) fun cond => do
      let sort ← liftE (body.value .ok "sort".toList .null)
      compiled (compileSort sort) (queryDocument srv body filter cond)

/-- `GET /frames/:id/calibration`. -/
def calibration (req : Request) (id : PathNumber) : Route W Response :=
  caught do
    connect
    let n ← liftE (parseLong id.val)
    match ← lightKeyFor srv n with
    | none => pure (sendError 404 "no such light frame".toList)
    | some L => do
      let out ← matchCalibration srv proc.parse L (qint (req.params "limit".toList) 10 1 100)
      pure (sendJson (.arr (out.map matchJson)) 200)

/-! ### Jobs, collections, names -/

def job (id : PathNumber) : Route W Response :=
  caught do
    connect
    let jr ← send srv
      [.fixed "SELECT id, type, status, dry_run, total_items, done_items, failed_items ",
        .fixed "FROM jobs WHERE id = ", .number id.val]
    match jr.head? with
    | none => pure (sendError 404 "no such job".toList)
    | some row => do
      let items ← send srv
        [.fixed "SELECT frame_id, action, src_path, dst_path, status, detail ",
          .fixed "FROM job_items WHERE job_id = ", .number id.val, .fixed " ORDER BY id LIMIT 5000"]
      let fields := ["id", "type", "status", "dry_run", "total", "done", "failed"].mapIdx
        fun i c => (c, cell row i)
      pure (sendJson (object (fields ++ [("items",
        rowsToJson items ["frame_id", "action", "src", "dst", "status", "detail"])])) 200)

/-- `GET /jobs/:id/launcher`: the script of a WBPP job. -/
def launcher (id : PathNumber) : Route W Response :=
  caught do
    connect
    let rows ← send srv
      [.fixed "SELECT params_json FROM jobs WHERE id = ", .number id.val, .fixed " AND type = 'wbpp'"]
    match firstCell rows with
    | none => pure (sendError 404 "no WBPP job with that id".toList)
    | some params => do
      let pp ← liftE ((proc.parse params).mapError Thrown.json)
      let script ← liftE (pp.valueStr "launcher".toList [])
      if script = [] then pure (sendError 404 "job has no launcher".toList)
      else pure ⟨200, .str script⟩

def collection (id : PathNumber) : Route W Response :=
  caught do
    connect
    let c ← send srv
      [.fixed "SELECT id, name, description FROM collections WHERE id = ", .number id.val]
    match c.head? with
    | none => pure (sendError 404 "no such collection".toList)
    | some row => do
      let members ← send srv
        [.fixed "SELECT v.frame_id, v.image_type, v.object, v.filter, v.session_night, ",
          .fixed "v.exposure_s, v.gain, v.rig, v.filename FROM collection_frames cf ",
          .fixed "JOIN v_frames v ON v.frame_id = cf.frame_id WHERE cf.collection_id = ",
          .number id.val, .fixed " ORDER BY cf.position, cf.added_at LIMIT 5000"]
      pure (sendJson (object [("id", cell row 0), ("name", cell row 1), ("description", cell row 2),
        ("frames", rowsToJson members ["frame_id", "image_type", "object", "filter",
          "session_night", "exposure_s", "gain", "rig", "filename"])]) 200)

/-- The cached resolution of a name: of two rows with one name the later one. -/
def sesameOf (cached : List Row) (raw : Str) : Json :=
  ((cached.reverse.find? fun r => Row.col r 0 = some raw).map fun r =>
    object [("name", cell r 1), ("ra_deg", cell r 2), ("dec_deg", cell r 3), ("otype", cell r 4)]).getD
    .null

/-- One raw name with its frames, the stored name and the offline proposal. -/
def objectJson (cached : List Row) (r : Row) : Except Thrown Json := do
  let raw := (Row.col r 0).getD []
  let c := Names.canonicalize raw
  let count ← match Row.col r 2 with
    | some n => parseLong n
    | none => .ok 0
  pure (object [("raw", .str raw), ("count", .int count), ("current", cell r 1),
    ("offline", .str c.canonical), ("catalog", .str c.catalog), ("placeholder", .bool c.placeholder),
    ("changed", .bool c.changed), ("sesame", sesameOf cached raw)])

def objects : Route W Response :=
  caught do
    connect
    let rows ← send srv
      [.fixed "SELECT object, MAX(object_canonical), COUNT(*) FROM frames ",
        .fixed "WHERE object IS NOT NULL AND object <> '' GROUP BY object ORDER BY object"]
    let cached ← send srv
      [.fixed "SELECT raw, canonical, ra_deg, dec_deg, otype FROM object_names WHERE source = 'sesame'"]
    let arr ← liftE (rows.mapM (objectJson cached))
    pure (sendJson (object [("sesame_enabled", .bool proc.sesameEnabled), ("objects", .arr arr)]) 200)

/-! ### The process itself -/

/-- `GET /me`.  Without an identity it says whether one can be asked for. -/
def me (req : Request) : Route W Response := do
  match ← authenticate proc.token proc.now req with
  | some c => pure (sendJson (object [("authenticated", .bool true), ("username", .str c.username),
      ("role", .str (match c.role with
        | .admin => "admin".toList
        | .user => "user".toList
        | .readonly => "readonly".toList)),
      ("via", .str (if c.viaToken then "token".toList else "session".toList))]) 200)
  | none => do
    let required ← if proc.token = [] then anyUsers else pure true
    pure (sendJson (object [("authenticated", .bool false), ("auth_required", .bool required)]) 200)

/-- `get_setting`. -/
def getSetting (name : String) : Route W (Option Str) := do
  let rows ← send srv
    [.fixed "SELECT value FROM settings WHERE name = ", .quoted name.toList, .fixed " LIMIT 1"]
  pure (firstCell rows)

/-- `GET /settings`: the listener as it runs, and as it is configured. -/
def settings : Route W Response :=
  caught do
    connect
    let bind ← getSetting srv "api_bind"
    let port ← getSetting srv "api_port"
    let tls ← getSetting srv "api_tls"
    let running := proc.listener
    let configured : Listener :=
      { bind := (bind.filter (· ≠ [])).getD running.bind
        port := ((port.filter (· ≠ [])).bind fun v => (parseInt v).toOption).getD running.port
        tls := (tls.map fun v => decide (v = "on".toList)).getD running.tls }
    pure (sendJson (object [("running", listenerJson running), ("configured", listenerJson configured),
      ("restart_required", .bool (configured ≠ running)), ("can_apply", .bool proc.canApply)]) 200)

/-- `GET /interfaces`: all interfaces and localhost, then the machine's addresses. -/
def interfaces : Route W Response :=
  let entry := fun (a : Str × Str) => object [("name", .str a.1), ("address", .str a.2)]
  pure (sendJson (.arr ((("all interfaces".toList, "0.0.0.0".toList) ::
    ("localhost".toList, "127.0.0.1".toList) :: proc.addresses).map entry)) 200)

/-- A file of the web interface; any other path is unknown. -/
def webFile (path : Str) : Route W Response :=
  match proc.webFile path with
  | some content => pure ⟨200, .str content⟩
  | none => pure ⟨404, .null⟩

/-! ### By route -/

/-- What each route answers. -/
def reading (req : Request) : ReadRoute → Route W Response
  | .status => status srv proc
  | .facets field => facets srv field
  | .roots => roots srv
  | .frames => frames srv req
  | .frame id => frame srv id
  | .query => postQuery srv req
  | .queries => queries srv
  | .calibration id => calibration srv proc req id
  | .jobs => jobs srv
  | .job id => job srv id
  | .launcher id => launcher srv proc id
  | .summary => summary srv req
  | .scanStatus => pure (sendJson (scanJson proc.scan) 200)
  | .tags => tags srv
  | .collections => collections srv
  | .collection id => collection srv id
  | .db => db srv proc
  | .me => me proc req
  | .objects => objects srv proc
  | .settings => settings srv proc
  | .interfaces => interfaces proc
  | .other path => webFile proc path

end Routes

/-! ### They read -/

set_option maxRecDepth 4000

theorem reads_addEqClause (req : Request) {param column : String} :
    Reads (addEqClause req param column) := by
  unfold addEqClause
  split
  · exact reads_nil
  · exact reads_fixed rfl (reads_value rfl (reads_fixed rfl (reads_value rfl reads_nil)))

theorem reads_frameFilters (req : Request) : Reads (frameFilters req) := by
  refine reads_fixed rfl (reads_append ?_ ?_)
  · split
    · exact reads_nil
    · exact reads_fixed rfl (reads_append (reads_quotedList _) (reads_fixed rfl reads_nil))
  · exact reads_append (reads_addEqClause req) (reads_append (reads_addEqClause req)
      (reads_append (reads_addEqClause req) (reads_append (reads_addEqClause req)
        (reads_append (reads_addEqClause req) (reads_addEqClause req)))))

theorem reads_effectiveWhere (cond : Cond) (hide : Bool) : Reads (effectiveWhere cond hide) := by
  unfold effectiveWhere
  split
  · exact reads_fixed rfl (reads_value rfl (reads_fixed rfl reads_nil))
  · exact reads_value rfl reads_nil

theorem reads_pageOf {order : List Part} (h : Reads order) (limit offset : Int) :
    Reads (pageOf order limit offset) :=
  reads_fixed rfl (reads_append h
    (reads_fixed rfl (reads_value rfl (reads_fixed rfl (reads_value rfl reads_nil)))))

section Reading

variable [Host] {W : Type} {srv : Server W} {proc : Process}

theorem listing_readOnly {sql : List Part} (h : isRead sql = true) (cols : List String) :
    ReadOnly (listing srv sql cols) :=
  readOnly_caught (readOnly_connect (readOnly_send h fun _ => readOnly_pure _))

theorem summary_readOnly (req : Request) : ReadOnly (summary srv req) := by
  refine listing_readOnly (isRead_select rfl (reads_value rfl (reads_fixed rfl (reads_fixed rfl
    (reads_append ?_ (reads_fixed rfl (reads_value rfl (reads_fixed rfl reads_nil)))))))) _
  split
  · exact reads_nil
  · exact reads_fixed rfl reads_nil

theorem schemaVersion_readOnly : ReadOnly (schemaVersion srv) := by
  refine readOnly_send (isRead_select rfl (reads_fixed rfl (reads_value rfl
    (reads_fixed rfl reads_nil)))) fun found => ?_
  exact readOnly_ite (readOnly_pure _)
    (readOnly_send (isRead_select rfl reads_nil) fun _ => readOnly_pure _)

theorem scalar_readOnly {sql : List Part} (h : isRead sql = true) : ReadOnly (scalar srv sql) :=
  readOnly_send h fun _ => liftE_readOnly _

/-- A route that goes on with a count. -/
theorem readOnly_scalar {α : Type} {sql : List Part} {f : Int → Route W α} (h : isRead sql = true)
    (hf : ∀ n, ReadOnly (f n)) : ReadOnly (scalar srv sql >>= f) :=
  readOnly_bind (scalar_readOnly h) hf

theorem status_readOnly : ReadOnly (status srv proc) := by
  refine readOnly_caught (readOnly_connect (readOnly_bind schemaVersion_readOnly fun schema => ?_))
  refine readOnly_scalar (isRead_select rfl reads_nil) fun roots => ?_
  refine readOnly_scalar (isRead_select rfl reads_nil) fun files => ?_
  refine readOnly_scalar (isRead_select rfl reads_nil) fun frames => ?_
  refine readOnly_scalar (isRead_select rfl (reads_fixed rfl reads_nil)) fun objects => ?_
  refine readOnly_scalar (isRead_select rfl reads_nil) fun nights => ?_
  exact readOnly_scalar (isRead_select rfl reads_nil) fun errors => readOnly_pure _

theorem tableCount_readOnly (name : Str) : ReadOnly (tableCount srv name) :=
  readOnly_tryCatch (scalar_readOnly (isRead_select rfl (reads_value rfl reads_nil)))
    fun _ => readOnly_pure _

theorem db_readOnly : ReadOnly (db srv proc) := by
  refine readOnly_caught (readOnly_connect (readOnly_bind schemaVersion_readOnly fun schema => ?_))
  refine readOnly_send (isRead_select rfl (reads_fixed rfl (reads_fixed rfl reads_nil)))
    fun tables => ?_
  refine readOnly_bind (readOnly_mapM (fun r => ?_) tables) fun counted => ?_
  · exact readOnly_bind (tableCount_readOnly _) fun _ => readOnly_pure _
  · refine readOnly_send (isRead_select rfl reads_nil) fun files => ?_
    exact readOnly_send (isRead_select rfl (reads_fixed rfl reads_nil)) fun views => readOnly_pure _

theorem facets_readOnly (field : Str) : ReadOnly (facets srv field) := by
  refine readOnly_caught (readOnly_ite (readOnly_pure _) (readOnly_connect ?_))
  refine readOnly_send (isRead_select rfl ?_) fun rows => readOnly_pure _
  exact reads_value rfl (reads_fixed rfl (reads_value rfl (reads_fixed rfl (reads_value rfl
    (reads_fixed rfl (reads_value rfl reads_nil))))))

theorem hiddenCount_readOnly (hide : Bool) {sql : List Part} (h : isRead sql = true) :
    ReadOnly (hiddenCount srv hide sql) :=
  readOnly_ite (scalar_readOnly h) (readOnly_pure _)

theorem frames_readOnly (req : Request) : ReadOnly (frames srv req) := by
  refine readOnly_caught (readOnly_connect ?_)
  have hfilters : Reads (frameFilters req) := reads_frameFilters req
  have hcond : ∀ b : Bool, Reads (frameFilters req ++
      if b then [] else [.fixed " AND file_status <> 'missing'"]) := by
    intro b
    refine reads_append hfilters ?_
    split
    · exact reads_nil
    · exact reads_fixed rfl reads_nil
  refine readOnly_scalar (isRead_select rfl (hcond _)) fun total => ?_
  refine readOnly_bind (hiddenCount_readOnly _ (isRead_select rfl
    (reads_append hfilters (reads_fixed rfl reads_nil)))) fun hidden => ?_
  exact readOnly_send (isRead_select rfl (reads_fixed rfl (reads_fixed rfl (reads_append (hcond _)
    (reads_pageOf (reads_fixed rfl reads_nil) _ _))))) fun rows => readOnly_pure _

theorem frame_readOnly (id : PathNumber) : ReadOnly (frame srv id) := by
  have htail : ∀ {cs : Str}, onlyReads cs = true → Reads [.number id.val, .fixed (String.ofList cs)] :=
    fun h => reads_value rfl (reads_fixed h reads_nil)
  refine readOnly_caught (readOnly_connect ?_)
  refine readOnly_send (isRead_select rfl (htail rfl)) fun rows => ?_
  split
  · exact readOnly_pure _
  · refine readOnly_send (isRead_select rfl (reads_fixed rfl reads_nil)) fun columns => ?_
    refine readOnly_send (isRead_select rfl (htail rfl)) fun kw => ?_
    refine readOnly_send (isRead_select rfl (reads_fixed rfl (htail rfl))) fun arts => ?_
    refine readOnly_send (isRead_select rfl (reads_fixed rfl (htail rfl))) fun tg => ?_
    exact readOnly_send (isRead_select rfl (reads_fixed rfl (htail rfl))) fun cl => readOnly_pure _

theorem liftCompile_readOnly {α : Type} (c : Compile α) : ReadOnly (liftCompile c : Route W α) := by
  rcases c with (what | e) | a
  · exact readOnly_throw _
  · exact readOnly_throw _
  · exact readOnly_pure _

theorem queryDocument_readOnly (body filter : Json) (cond : Cond) (keys : List SortKey) :
    ReadOnly (queryDocument srv body filter cond keys) := by
  refine readOnly_bind (liftCompile_readOnly _) fun limitArg => ?_
  refine readOnly_bind (liftCompile_readOnly _) fun offsetArg => ?_
  refine readOnly_liftE fun named => ?_
  refine readOnly_liftE fun includeMissing => ?_
  refine readOnly_scalar (isRead_select rfl (reads_effectiveWhere _ _)) fun total => ?_
  refine readOnly_bind (hiddenCount_readOnly _ (isRead_select rfl
    (reads_value rfl (reads_fixed rfl reads_nil)))) fun hidden => ?_
  refine readOnly_send (isRead_select rfl (reads_fixed rfl reads_nil)) fun view => ?_
  exact readOnly_send (isRead_select rfl (reads_value rfl (reads_fixed rfl
    (reads_append (reads_effectiveWhere _ _) (reads_pageOf (reads_value rfl reads_nil) _ _)))))
    fun rows => readOnly_pure _

theorem compiled_readOnly {α : Type} (c : Compile α) {next : α → Route W Response}
    (h : ∀ a, ReadOnly (next a)) : ReadOnly (compiled c next) := by
  rcases c with (what | e) | a
  · exact readOnly_pure _
  · exact readOnly_throw _
  · exact h a

theorem postQuery_readOnly (req : Request) : ReadOnly (postQuery srv req) := by
  refine readOnly_tryCatch (readOnly_connect ?_) fun e => ?_
  · have hbody : ∀ body : Json, ReadOnly (do
        let filter ← liftE (body.value .ok "filter".toList .null)
        compiled (compileFilter filter) fun cond => do
          let sort ← liftE (body.value .ok "sort".toList .null)
          compiled (compileSort sort) (queryDocument srv body filter cond)) := fun body =>
      readOnly_liftE fun filter => compiled_readOnly _ fun cond =>
        readOnly_liftE fun sort => compiled_readOnly _ fun keys => queryDocument_readOnly _ _ _ _
    exact readOnly_ite (readOnly_bind (readOnly_pure _) hbody)
      (readOnly_bind (parseBody_readOnly req) hbody)
  · cases e <;> exact readOnly_pure _

theorem calibration_readOnly (req : Request) (id : PathNumber) :
    ReadOnly (calibration srv proc req id) := by
  refine readOnly_caught (readOnly_connect (readOnly_liftE fun n => ?_))
  refine readOnly_bind (lightKeyFor_readOnly n) fun L => ?_
  cases L with
  | none => exact readOnly_pure _
  | some L => exact readOnly_bind (matchCalibration_readOnly _ _) fun _ => readOnly_pure _

theorem job_readOnly (id : PathNumber) : ReadOnly (job srv id) := by
  refine readOnly_caught (readOnly_connect ?_)
  refine readOnly_send (isRead_select rfl (reads_fixed rfl (reads_value rfl reads_nil))) fun jr => ?_
  split
  · exact readOnly_pure _
  · exact readOnly_send (isRead_select rfl (reads_fixed rfl (reads_value rfl
      (reads_fixed rfl reads_nil)))) fun items => readOnly_pure _

theorem launcher_readOnly (id : PathNumber) : ReadOnly (launcher srv proc id) := by
  refine readOnly_caught (readOnly_connect ?_)
  refine readOnly_send (isRead_select rfl (reads_value rfl (reads_fixed rfl reads_nil))) fun rows => ?_
  split
  · exact readOnly_pure _
  · exact readOnly_liftE fun pp => readOnly_liftE fun script =>
      readOnly_ite (readOnly_pure _) (readOnly_pure _)

theorem collection_readOnly (id : PathNumber) : ReadOnly (collection srv id) := by
  refine readOnly_caught (readOnly_connect ?_)
  refine readOnly_send (isRead_select rfl (reads_value rfl reads_nil)) fun c => ?_
  split
  · exact readOnly_pure _
  · exact readOnly_send (isRead_select rfl (reads_fixed rfl (reads_fixed rfl (reads_value rfl
      (reads_fixed rfl reads_nil))))) fun members => readOnly_pure _

theorem objects_readOnly : ReadOnly (objects srv proc) := by
  refine readOnly_caught (readOnly_connect ?_)
  refine readOnly_send (isRead_select rfl (reads_fixed rfl reads_nil)) fun rows => ?_
  refine readOnly_send (isRead_select rfl reads_nil) fun cached => ?_
  exact readOnly_liftE fun arr => readOnly_pure _

theorem me_readOnly (req : Request) : ReadOnly (me proc req : Route W Response) := by
  refine readOnly_bind (authenticate_readOnly _ _ req) fun c => ?_
  cases c with
  | some c => exact readOnly_pure _
  | none =>
    exact readOnly_ite (readOnly_bind anyUsers_readOnly fun _ => readOnly_pure _)
      (readOnly_bind (readOnly_pure _) fun _ => readOnly_pure _)

theorem getSetting_readOnly (name : String) : ReadOnly (getSetting srv name) :=
  readOnly_send (isRead_select rfl (reads_value rfl (reads_fixed rfl reads_nil)))
    fun _ => readOnly_pure _

theorem settings_readOnly : ReadOnly (settings srv proc) :=
  readOnly_caught (readOnly_connect
    (readOnly_bind (getSetting_readOnly _) fun _ => readOnly_bind (getSetting_readOnly _) fun _ =>
      readOnly_bind (getSetting_readOnly _) fun _ => readOnly_pure _))

theorem webFile_readOnly (path : Str) : ReadOnly (webFile proc path : Route W Response) := by
  unfold webFile
  split
  · exact readOnly_pure _
  · exact readOnly_pure _

/-- **The routes without a gate only read**, whatever is asked and whatever fails. -/
theorem reading_readOnly (srv : Server W) (proc : Process) (req : Request) (r : ReadRoute) :
    ReadOnly (reading srv proc req r) := by
  cases r with
  | status => exact status_readOnly
  | facets field => exact facets_readOnly field
  | roots => exact listing_readOnly (isRead_select rfl (reads_fixed rfl (reads_fixed rfl reads_nil))) _
  | frames => exact frames_readOnly req
  | frame id => exact frame_readOnly id
  | query => exact postQuery_readOnly req
  | queries => exact listing_readOnly (isRead_select rfl (reads_fixed rfl reads_nil)) _
  | calibration id => exact calibration_readOnly req id
  | jobs => exact listing_readOnly (isRead_select rfl (reads_fixed rfl reads_nil)) _
  | job id => exact job_readOnly id
  | launcher id => exact launcher_readOnly id
  | summary => exact summary_readOnly req
  | scanStatus => exact readOnly_pure _
  | tags => exact listing_readOnly (isRead_select rfl (reads_fixed rfl reads_nil)) _
  | collections =>
    exact listing_readOnly (isRead_select rfl (reads_fixed rfl (reads_fixed rfl reads_nil))) _
  | collection id => exact collection_readOnly id
  | db => exact db_readOnly
  | me => exact me_readOnly req
  | objects => exact objects_readOnly
  | settings => exact settings_readOnly
  | interfaces => exact readOnly_pure _
  | other path => exact webFile_readOnly path

end Reading

end StarBase.Api
