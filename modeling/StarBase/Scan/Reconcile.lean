import StarBase.Index.StoreSpec

/-!
# Reconciliation

After a sweep a row it did not see is either re-anchored, when its content appeared at one new
path, or marked missing.

* `guardTrips` — the mount guard;
* `moveTarget` — the row a vanished row is matched with;
* `reconcileStatements`, `runStatements` — the statements sent, one after the other, and what they
  make of the database;
* `reconcileRoot` — the whole pass.

Log lines are left out.
-/

namespace StarBase.Scan

open Relational

/-- The order in which the server returns the rows of a query without `ORDER BY`. -/
structure RowOrder where
  arrange : List FileRow → List FileRow
  perm : ∀ l, (arrange l).Perm l

/-- `last_seen_utc >= ss`; `NULL` is not. -/
def seenSince (ss : Micros) (r : FileRow) : Bool := r.lastSeenUtc.any fun t => decide (ss ≤ t)

/-- `status <> 'missing' AND (last_seen_utc IS NULL OR last_seen_utc < ss)`. -/
def isVanished (rootId : ℕ) (ss : Micros) (r : FileRow) : Bool :=
  r.rootId = rootId && r.status ≠ .missing && !seenSince ss r

/-- `first_seen_utc >= ss`. -/
def isAppeared (rootId : ℕ) (ss : Micros) (r : FileRow) : Bool :=
  r.rootId = rootId && ss ≤ r.firstSeenUtc

/-- Refuse to reconcile when far fewer files were seen than the root held. -/
def guardTrips (prior seen : ℕ) : Bool :=
  decide (0 < prior) && (decide (seen = 0) || decide (seen < prior / 2))

inductive ReconcileStatement
  | deleteDuplicate (id : ℕ)
  | reanchor (id : ℕ) (target : FileRow)
  | markMissing (id : ℕ)

/-- The surviving row at the place of the row found there.  `error` and `first_seen_utc` stay. -/
def anchoredRow (now : Micros) (a r : FileRow) : FileRow :=
  { r with
    relPath := a.relPath
    relPathHash := a.relPathHash
    filename := a.filename
    ext := a.ext
    format := a.format
    bucket := a.bucket
    sizeBytes := a.sizeBytes
    mtimeUtc := a.mtimeUtc
    inode := a.inode
    status := a.status
    lastSeenUtc := some now
    lastIndexedUtc := some (wholeSecond now * 1000000) }

structure ReconcileResult [Host] where
  db : IndexDb
  moved : ℕ := 0
  missing : ℕ := 0

section Pass

variable [Host]

/-- The number of rows of the root seen since `ss`. -/
def seenNow (db : IndexDb) (rootId : ℕ) (ss : Micros) : ℕ :=
  (db.files.rows.filter fun r => r.rootId = rootId && seenSince ss r).length

/-- More than one row that appeared has the content `k`. -/
def ambiguous (db : IndexDb) (appeared : List FileRow) (k : List Str) : Bool :=
  decide (1 < (appeared.filter fun a => db.contentKey a.id = k).length)

/-- How many rows that vanished have the content `k`. -/
def vkCount (db : IndexDb) (vanished : List FileRow) (k : List Str) : ℕ :=
  (vanished.filter fun v => db.contentKey v.id = k).length

/-- The row that appeared with the content of `v`, unless `v` has no frames or the content is
ambiguous on either side. -/
def moveTarget (db : IndexDb) (vanished appeared : List FileRow) (v : FileRow) : Option FileRow :=
  let k := db.contentKey v.id
  if k ≠ [] ∧ ambiguous db appeared k = false ∧ vkCount db vanished k = 1 then
    appeared.find? fun a => db.contentKey a.id = k
  else none

/-- The statements for one vanished row. -/
def statementsFor (db : IndexDb) (vanished appeared : List FileRow) (v : FileRow) :
    List ReconcileStatement :=
  match moveTarget db vanished appeared v with
  | some a => [.deleteDuplicate a.id, .reanchor v.id a]
  | none => [.markMissing v.id]

def reconcileStatements (db : IndexDb) (vanished appeared : List FileRow) :
    List ReconcileStatement :=
  vanished.flatMap (statementsFor db vanished appeared)

/-- One statement; `none` is an exception.  `moment i` is the instant at which the row `i` is
re-anchored. -/
def execStatement (moment : ℕ → Micros) (db : IndexDb) : ReconcileStatement → Option IndexDb
  | .deleteDuplicate i => some (db.deleteFile i)
  | .reanchor i a => db.rekeyFile i (anchoredRow (moment i) a) fun _ => rfl
  | .markMissing i => some (db.modifyFiles (fun r => r.id = i) missingRow)

/-- The statements in order, up to an exception. -/
def runStatements (moment : ℕ → Micros) (db : IndexDb) : List ReconcileStatement → IndexDb × Bool
  | [] => (db, true)
  | s :: rest =>
    match execStatement moment db s with
    | some db' => runStatements moment db' rest
    | none => (db, false)

/-- The rows of the root that the sweep did not see. -/
def vanishedRows (db : IndexDb) (rootId : ℕ) (ss : Micros) : List FileRow :=
  db.files.rows.filter (isVanished rootId ss)

/-- The rows of the root that the sweep made. -/
def appearedRows (db : IndexDb) (rootId : ℕ) (ss : Micros) : List FileRow :=
  db.files.rows.filter (isAppeared rootId ss)

/-- The pass over one root; `prior` is the number of rows that were `ok` before the sweep. -/
def reconcileRoot (rootId : ℕ) (ss : Micros) (prior : ℕ) (order : RowOrder)
    (moment : ℕ → Micros) (db : IndexDb) : ReconcileResult :=
  if guardTrips prior (seenNow db rootId ss) then { db := db }
  else
    let vanished := order.arrange (vanishedRows db rootId ss)
    let appeared := order.arrange (appearedRows db rootId ss)
    let done := runStatements moment db (reconcileStatements db vanished appeared)
    let moves := (vanished.filter fun v => (moveTarget db vanished appeared v).isSome).length
    -- An exception loses the counts.
    if done.2 then { db := done.1, moved := moves, missing := vanished.length - moves }
    else { db := done.1 }

end Pass

end StarBase.Scan
