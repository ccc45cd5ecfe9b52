import Mathlib.Data.Fintype.Basic
import StarBase.Scan.Walk

/-!
# The sweep: workers over one queue

A sweep of a root is a machine over the state of its workers and the database.  Every event is one
step of one worker at an instant of the server's clock, or the stop flag going up.

* `look` — what a worker decides when it has taken a file: `stat`, settle gate, change detection;
* `commitTouch`, `commitStore`, `commitError` — the three writes, each one transaction;
* `next` — one event; `sweep` — a run of events;
* `Complete` — the queue is drained, the workers are idle, nothing was stopped or refused.

The queue holds every file from the start and has no bound.  Sidecars, threads and faults of the
connection are in the pass.
-/

namespace StarBase.Scan

open Relational Extract

/-- What the workers of a sweep share. -/
structure SweepConfig where
  rootId : ℕ
  caseSensitive : Bool
  settleSeconds : Int
  store : StoreContext
  /-- The offset of the session's time zone, which `CURRENT_TIMESTAMP` is in. -/
  sessionOffset : Micros

/-- What became of a file a worker took. -/
inductive Outcome
  | dropped
  | gone
  | settling
  | touched (t : Micros)
  | stored (t : Micros)
  | failed (t : Micros) (what : Str)
  | refused (t : Micros) (what : Str)
  deriving DecidableEq

structure Entry (W : Type) where
  worker : W
  offer : Offer
  outcome : Outcome

/-- What a worker is about to do. -/
inductive Hand
  | idle
  | popped (o : Offer)
  | touch (o : Offer) (id : ℕ)
  | store (o : Offer) (st : FileStat) (known : Bool)
  | failed (o : Offer) (st : FileStat) (what : Str)

structure ScanStats where
  seen : ℕ := 0
  added : ℕ := 0
  updated : ℕ := 0
  skipped : ℕ := 0
  settling : ℕ := 0
  errored : ℕ := 0
  frames : ℕ := 0
  deriving DecidableEq

/-- The state of a sweep with workers `W`.  `trace` lists what became of the files so far. -/
structure SweepState (W : Type) [Host] where
  queue : List Offer
  hands : W → Hand
  caches : W → Caches
  db : IndexDb
  stopped : Bool
  stats : ScanStats
  trace : List (Entry W)

/-- An event: the stop flag goes up, or a worker takes its next step at an instant. -/
inductive Event (W : Type)
  | stop
  | work (w : W) (t : Micros)

section Steps

variable [Host]

def Offer.key (cfg : SweepConfig) (o : Offer) : ℕ × Str :=
  (cfg.rootId, Host.md5 (hashPath cfg.caseSensitive o.relPath))

def Offer.info (cfg : SweepConfig) (o : Offer) (st : FileStat) : FileInfo where
  rootId := cfg.rootId
  relPath := o.relPath
  filename := o.filename
  ext := o.ext
  format := formatForExt o.ext
  bucket := bucketFor o.relPath
  sizeBytes := some st.size
  mtimeUtc := some st.mtime
  inode := some st.inode
  caseSensitive := cfg.caseSensitive

/-- A file still likely being written, by the clock of the worker. -/
def unsettled (cfg : SweepConfig) (now : Int) (st : FileStat) : Bool :=
  decide (now - st.mtimeSec < cfg.settleSeconds)

/-- The row indexed cleanly before, and size and whole second of the mtime are the same. -/
def unchanged (r : FileRow) (st : FileStat) : Bool :=
  r.status = .ok && r.sizeBytes = some st.size &&
    (r.mtimeUtc.map wholeSecond = some (wholeSecond st.mtime))

/-- The change detection of a settled file. -/
def plan (cfg : SweepConfig) (db : IndexDb) (o : Offer) (st : FileStat) : Hand :=
  match db.files.get (o.key cfg) with
  | some r => if unchanged r st then .touch o r.id else .store o st true
  | none => .store o st false

/-- `UPDATE files SET last_seen_utc = now, status = 'ok'`. -/
def touchRow (t : Micros) : RowUpdate fileKeying where
  apply r := { r with lastSeenUtc := some t, status := .ok }
  id_apply _ := rfl
  key_apply _ := rfl

def touchDb (db : IndexDb) (id : ℕ) (t : Micros) : IndexDb :=
  db.modifyFiles (fun r => r.id = id) (touchRow t)

/-- The text recorded for an exception. -/
def Thrown.what : Thrown → Str
  | .json what => what
  | .std what => what

/-- The new row of a file that could not be indexed.  Its first sighting has the column's
default, which is in the session's time zone. -/
def newErrorRow (cfg : SweepConfig) (o : Offer) (st : FileStat) (what : Str) (t : Micros) :
    RowMaker fileKeying (o.key cfg) where
  make id :=
    { id := id
      rootId := cfg.rootId
      relPath := o.relPath
      relPathHash := (o.key cfg).2
      filename := o.filename
      ext := some o.ext
      format := formatForExt o.ext
      bucket := bucketFor o.relPath
      sizeBytes := some st.size
      mtimeUtc := some st.mtime
      inode := none
      status := .error
      error := some (what.take 500)
      firstSeenUtc := t + cfg.sessionOffset
      lastSeenUtc := some t
      lastIndexedUtc := none }
  id_make _ := rfl
  key_make _ := rfl

/-- The update of a known file that could not be indexed. -/
def errorRow (what : Str) (t : Micros) : RowUpdate fileKeying where
  apply r := { r with status := .error, error := some (what.take 500), lastSeenUtc := some t }
  id_apply _ := rfl
  key_apply _ := rfl

/-- Whether the server takes the error row. -/
def errorAccepted (cfg : SweepConfig) (o : Offer) (st : FileStat) (what : Str) : Bool :=
  (o.info cfg st).accepted && Host.fits 512 (what.take 500)

def errorDb (cfg : SweepConfig) (db : IndexDb) (o : Offer) (st : FileStat) (what : Str)
    (t : Micros) : IndexDb :=
  db.upsertFile (o.key cfg) (newErrorRow cfg o st what t) (errorRow what t)

end Steps

section Machine

variable [Host] {W : Type} [DecidableEq W]

/-- Put a worker's hand. -/
def SweepState.put (s : SweepState W) (w : W) (h : Hand) : SweepState W :=
  { s with hands := Function.update s.hands w h }

/-- A worker is done with a file. -/
def SweepState.finish (s : SweepState W) (w : W) (o : Offer) (out : Outcome) : SweepState W :=
  { s with
    hands := Function.update s.hands w .idle
    trace := s.trace ++ [⟨w, o, out⟩] }

/-- A worker takes the next file. -/
def takeNext (s : SweepState W) (w : W) : SweepState W :=
  match s.queue with
  | [] => s
  | o :: rest => { s.put w (.popped o) with queue := rest }

/-- What a worker does with the file it has taken, before any write. -/
def look (cfg : SweepConfig) (clock : W → Int) (s : SweepState W) (w : W) (o : Offer) :
    SweepState W :=
  if s.stopped then s.finish w o .dropped
  else match o.stat with
    | none => s.finish w o .gone
    | some st =>
      if unsettled cfg (clock w) st then
        { s.finish w o .settling with
          stats := { s.stats with seen := s.stats.seen + 1, settling := s.stats.settling + 1 } }
      else
        { s.put w (plan cfg s.db o st) with stats := { s.stats with seen := s.stats.seen + 1 } }

def commitTouch (s : SweepState W) (w : W) (o : Offer) (id : ℕ) (t : Micros) : SweepState W :=
  { s.finish w o (.touched t) with
    db := touchDb s.db id t
    stats := { s.stats with skipped := s.stats.skipped + 1 } }

/-- Read the header and store the file; an exception is kept for the error row. -/
def commitStore (cfg : SweepConfig) (s : SweepState W) (w : W) (o : Offer) (st : FileStat)
    (known : Bool) (t : Micros) : SweepState W :=
  match o.header with
  | .error what => s.put w (.failed o st what)
  | .ok header =>
    match storeFile cfg.store t (o.info cfg st) header ⟨s.db, s.caches w⟩ with
    | (.ok _, r) =>
      { s.finish w o (.stored t) with
        db := r.db
        caches := Function.update s.caches w r.caches
        stats := { s.stats with
          frames := s.stats.frames + header.imageHdus.length
          updated := if known then s.stats.updated + 1 else s.stats.updated
          added := if known then s.stats.added else s.stats.added + 1 } }
    | (.error e, r) =>
      { s.put w (.failed o st (Thrown.what e)) with
        db := r.db
        caches := Function.update s.caches w r.caches }

/-- The error row, best effort. -/
def commitError (cfg : SweepConfig) (s : SweepState W) (w : W) (o : Offer) (st : FileStat)
    (what : Str) (t : Micros) : SweepState W :=
  if errorAccepted cfg o st what then
    { s.finish w o (.failed t what) with
      db := errorDb cfg s.db o st what t
      stats := { s.stats with errored := s.stats.errored + 1 } }
  else
    { s.finish w o (.refused t what) with
      stats := { s.stats with errored := s.stats.errored + 1 } }

/-- One event. -/
def next (cfg : SweepConfig) (clock : W → Int) (s : SweepState W) : Event W → SweepState W
  | .stop => { s with stopped := true }
  | .work w t =>
    match s.hands w with
    | .idle => takeNext s w
    | .popped o => look cfg clock s w o
    | .touch o id => commitTouch s w o id t
    | .store o st known => commitStore cfg s w o st known t
    | .failed o st what => commitError cfg s w o st what t

/-- The state before the first event. -/
def start (offers : List Offer) (db : IndexDb) : SweepState W where
  queue := offers
  hands := fun _ => .idle
  caches := fun _ => {}
  db := db
  stopped := false
  stats := {}
  trace := []

/-- A run of events. -/
def sweep (cfg : SweepConfig) (clock : W → Int) (s : SweepState W) (events : List (Event W)) :
    SweepState W :=
  events.foldl (next cfg clock) s

/-- No write was refused by the server. -/
def NoneRefused (s : SweepState W) : Prop :=
  ∀ e ∈ s.trace, ∀ t what, e.outcome ≠ .refused t what

/-- The sweep has ended: every file was taken, every worker is idle, nothing was cut short. -/
structure Complete (s : SweepState W) : Prop where
  drained : s.queue = []
  idle : ∀ w, s.hands w = .idle
  running : s.stopped = false
  served : NoneRefused s

/-- Every write of the run comes at `ss` or later. -/
def AllAfter (ss : Micros) (events : List (Event W)) : Prop :=
  ∀ e ∈ events, ∀ w t, e = .work w t → ss ≤ t

/-! ### Checking a concrete run -/

def Outcome.isRefused : Outcome → Bool
  | .refused _ _ => true
  | _ => false

def Hand.isIdle : Hand → Bool
  | .idle => true
  | _ => false

def Event.isAfter (ss : Micros) : Event W → Bool
  | .stop => true
  | .work _ t => decide (ss ≤ t)

omit [Host] [DecidableEq W] in
theorem allAfter_iff {ss : Micros} {events : List (Event W)} :
    AllAfter ss events ↔ events.all (Event.isAfter ss) = true := by
  rw [List.all_eq_true]
  constructor
  · intro h e he
    cases e with
    | stop => rfl
    | work w t => simpa [Event.isAfter] using h _ he w t rfl
  · intro h e he w t hwt
    have := h e he
    rw [hwt] at this
    simpa [Event.isAfter] using this

omit [DecidableEq W] in
theorem complete_iff [Fintype W] {s : SweepState W} :
    Complete s ↔ s.queue.isEmpty = true ∧ (∀ w, (s.hands w).isIdle = true) ∧ s.stopped = false ∧
      (s.trace.all fun e => !e.outcome.isRefused) = true := by
  have hidle : ∀ h : Hand, h.isIdle = true ↔ h = .idle := by
    intro h
    cases h <;> simp [Hand.isIdle]
  have hserved : (s.trace.all fun e => !e.outcome.isRefused) = true ↔ NoneRefused s := by
    rw [List.all_eq_true]
    refine forall₂_congr fun e _ => ?_
    cases e.outcome <;> simp [Outcome.isRefused]
  rw [hserved, List.isEmpty_iff]
  simp only [hidle]
  exact ⟨fun h => ⟨h.1, h.2, h.3, h.4⟩, fun h => ⟨h.1, h.2.1, h.2.2.1, h.2.2.2⟩⟩

omit [DecidableEq W] in
instance decidableComplete [Fintype W] (s : SweepState W) : Decidable (Complete s) :=
  decidable_of_iff _ complete_iff.symm

omit [Host] [DecidableEq W] in
instance decidableAllAfter (ss : Micros) (events : List (Event W)) :
    Decidable (AllAfter ss events) :=
  decidable_of_iff _ allAfter_iff.symm

end Machine

end StarBase.Scan
