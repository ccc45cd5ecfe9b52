import StarBase.Query.Select

/-!
# Browsing the frames

`GET /frames` lists frames by a few parameters of the query string, newest first.

* `stol`, `qint` — a parameter as a number between two bounds;
* `browseCond` — the condition of the parameters;
* `browse` — the listing.

The columns of the answer are left out.
-/

namespace StarBase.Query

open Relational Extract StarBase.Action

/-! ### Parameters -/

/-- `std::stol`. -/
def stol (s : Str) : Except Thrown Int :=
  match scanInteger s with
  | none => .error (.std "stol".toList)
  | some (n, _) => if -(2 ^ 63) ≤ n ∧ n < 2 ^ 63 then .ok n else .error (.std "stol".toList)

/-- A parameter as a number between two bounds; the default if it is absent or no number. -/
def qint (param : Option Str) (default lo hi : Int) : Int :=
  match param with
  | none => default
  | some s =>
    match stol s with
    | .ok v => max lo (min hi v)
    | .error _ => default

/-- The parameters of `GET /frames`. -/
structure BrowseRequest where
  object : Option Str := none
  imageType : Option Str := none
  filter : Option Str := none
  night : Option Str := none
  rig : Option Str := none
  camera : Option Str := none
  root : Option Str := none
  includeMissing : Str := []
  limit : Option Str := none
  offset : Option Str := none

/-! ### The listing -/

/-- `add_eq`. -/
def addEq (param : Option Str) (column : String) : List Cond :=
  param.toList.map fun v => .leaf (.compare column.toList "=".toList (.text v))

/-- `WHERE 1=1 AND ...`.  Object search is catalog-aware: a value is expanded to its equivalent
designations. -/
def browseCond (req : BrowseRequest) : Cond :=
  .all ((req.object.toList.map fun s =>
      Cond.leaf (.isIn "object_canonical".toList ((Names.designations s).map .text))) ++
    (addEq req.imageType "image_type" ++ (addEq req.filter "filter" ++
      (addEq req.night "session_night" ++ (addEq req.rig "rig" ++
        (addEq req.camera "camera" ++ addEq req.root "root_label"))))))

/-- What `GET /frames` answers. -/
structure BrowsePage where
  total : ℕ
  missingHidden : ℕ
  limit : ℕ
  offset : ℕ
  frames : List ViewRow

section Route

variable [Host] (truth : Truth) (order : List SortKey → ServerOrder ViewRow)

def browseLimit (req : BrowseRequest) : ℕ := (qint req.limit 50 1 500).toNat

def browseOffset (req : BrowseRequest) : ℕ := (qint req.offset 0 0 100000000).toNat

/-- `GET /frames`.  Soft-deleted files are hidden unless the caller opts in. -/
def browse (db : IndexDb) (roots : List RootRow) (req : BrowseRequest) : BrowsePage :=
  let hideMissing := decide (req.includeMissing ≠ "1".toList)
  let cond := browseCond req
  let rows := vFrames db roots
  let shown := rows.filter (shows truth cond hideMissing)
  let hidden := rows.filter fun v => selects truth cond v && v.file.status = .missing
  { total := shown.length
    missingHidden := if hideMissing then hidden.length else 0
    limit := browseLimit req
    offset := browseOffset req
    frames := (((order [⟨"date_obs_utc".toList, true⟩]).arrange shown).drop
      (browseOffset req)).take (browseLimit req) }

end Route

/-! ### Numbers of a request -/

theorem qint_mem {param : Option Str} {default lo hi : Int} (hlo : lo ≤ default)
    (hhi : default ≤ hi) : lo ≤ qint param default lo hi ∧ qint param default lo hi ≤ hi := by
  unfold qint
  split
  · exact ⟨hlo, hhi⟩
  · split
    · omega
    · exact ⟨hlo, hhi⟩

theorem browseLimit_mem (req : BrowseRequest) : 0 < browseLimit req ∧ browseLimit req ≤ 500 := by
  have h : 1 ≤ qint req.limit 50 1 500 ∧ qint req.limit 50 1 500 ≤ 500 :=
    qint_mem (by decide) (by decide)
  unfold browseLimit
  omega

end StarBase.Query
