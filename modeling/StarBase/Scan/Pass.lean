import StarBase.Lib.Run
import StarBase.Lib.WorkPool
import StarBase.Scan.BoundedQueue
import StarBase.Scan.Worker

/-!
# The threads of a scan

`scan_root` as a machine: the calling thread, which walks the tree and keeps the books, the workers,
and the progress reporter.  Every step is one thread between two accesses to what the threads share,
or the stop flag going up.  What a call answers (a statement, a connection, `stat`, `read_header`) is
part of the event, so a run takes every answer into account.

* `mainNext`, `workerNext`, `reporterNext` — one step of one thread;
* `next` — one event;
* `WorkerStep`, `worker_step` — **PROVED**: all a step of a worker can do.

The registry, the baseline, the linking of sidecars and the reconciliation are each one step, since
each is one `try` block.  Every thread asked for is made, and `on_progress` does not throw.
-/

namespace StarBase.Scan.Pass

open BoundedQueue

/-! ### What the walk yields -/

/-- The kind of a sidecar or log by its extension; empty if it is neither. -/
def artifactKindFor (ext : Str) : Str :=
  let e := lower ext
  if e = ".txt".toList ∨ e = ".json".toList then "sidecar".toList
  else if e = ".log".toList then "log".toList
  else if e = ".csv".toList then "csv".toList
  else []

/-- What the walk reads of the entry it stands on; `relPath` is `none` if `relative` fails. -/
structure DirEntry where
  absPath : Str
  name : Str
  isRegularFile : Bool
  relPath : Option Str

structure WorkItem where
  absPath : Str
  relPath : Str
  filename : Str
  ext : Str
  /-- Empty for a frame. -/
  artifactKind : Str

/-- The item queued for an entry, if any. -/
def offered (ignore : List Str) (e : DirEntry) : Option WorkItem :=
  if matchesIgnore e.name ignore then none
  else if e.isRegularFile = false then none
  else
    let ext := extension e.name
    let kind := if isIndexable ext then [] else artifactKindFor ext
    if isIndexable ext = false ∧ kind = [] then none
    else some
      { absPath := e.absPath
        relPath := e.relPath.getD e.name
        filename := e.name
        ext := ext
        artifactKind := kind }

/-- What an increment of the iterator leaves: an entry, an error on the way, or an error that leaves
the iterator at its end.  Without an error the end is that of the list. -/
inductive Increment
  | entry (e : DirEntry)
  | failed
  | lost

/-! ### The threads -/

/-- Where the calling thread is.  From `joins` on, the error of the iterator's constructor comes
along. -/
inductive MainPlace
  /-- The equipment registry is read. -/
  | loads
  /-- The baseline is read. -/
  | marks
  | spawns (k : ℕ)
  /-- The iterator is constructed. -/
  | opens
  | walks
  | pushes (i : WorkItem)
  | joins (k : ℕ) (failed : Option Str)
  | stopsReporter (failed : Option Str)
  | joinsReporter (failed : Option Str)
  | links
  | reconciles
  | records
  | returned
  | threw (what : Str)

/-- An item with its number in the order of the queue. -/
abbrev Ticket := ℕ × WorkItem

/-- Where a worker is. -/
inductive WorkerPlace
  | absent
  | connects
  /-- The isolation level is set. -/
  | isolates
  | pops
  /-- The stop flag is tested next. -/
  | holds (i : Ticket)
  | stats (i : Ticket)
  /-- The artifact row is written. -/
  | records (i : Ticket)
  | selects (i : Ticket) (st : FileStat)
  | touches (i : Ticket)
  | reads (i : Ticket) (known : Bool)
  | stores (i : Ticket) (known : Bool)
  /-- The error row of an item counted as failed is written. -/
  | reports (i : Ticket)
  | ended
  | joined

inductive ReporterPlace
  | absent
  /-- The flag is tested next. -/
  | tests
  | emits
  | ended
  | joined

/-- What became of an item a worker took. -/
inductive Verdict
  | dropped
  | vanished
  | settling
  | recorded
  | skipped
  | stored (known : Bool) (frames : ℕ)
  | failed
  deriving DecidableEq

structure PassStats extends ScanStats where
  artifacts : ℕ := 0
  moved : ℕ := 0
  missing : ℕ := 0
  deriving DecidableEq

def Verdict.count (c : PassStats) : Verdict → PassStats
  | .dropped => c
  | .vanished => c
  | .settling => { c with settling := c.settling + 1 }
  | .recorded => { c with artifacts := c.artifacts + 1 }
  | .skipped => { c with skipped := c.skipped + 1 }
  | .stored known frames =>
    { c with
      frames := c.frames + frames
      updated := if known then c.updated + 1 else c.updated
      added := if known then c.added else c.added + 1 }
  | .failed => { c with errored := c.errored + 1 }

inductive ScanStatus
  | ok
  | error
  deriving DecidableEq

/-- The columns of the root that the end of a pass writes, besides `last_scan_end`. -/
structure Stamp where
  status : ScanStatus
  error : Option Str
  fileCount : ℕ

def stampOf (c : PassStats) (fileCount : ℕ) : Stamp where
  status := if c.errored = 0 then .ok else .error
  error := if c.errored = 0 then none
    else some (toString c.errored ++ " file(s) failed to index").toList
  fileCount := fileCount

structure PassConfig where
  capacity : ℕ := 4096
  settleSeconds : Int := 30
  ignore : List Str := []
  /-- `on_progress` is set. -/
  progress : Bool := false
  label : Str
  path : Str

/-- `nthreads` by the configured number and that of the hardware. -/
def poolSize (threads : Int) (hardware : ℕ) : ℕ :=
  if threads ≤ 0 then min (if hardware ≠ 0 then hardware else 4) 16 else threads.toNat

theorem poolSize_pos (threads : Int) (hardware : ℕ) : 0 < poolSize threads hardware := by
  unfold poolSize
  split_ifs <;> omega

/-- What the threads share, and where they are.  `script` is what the walk has yet to yield,
`walkErrors` the errors of the iterator so far, `trace` the verdicts by the number of the item, and
`shown` what the progress callback was called with. -/
structure PassState (n : ℕ) where
  main : MainPlace
  workers : Fin n → WorkerPlace
  reporter : ReporterPlace
  queue : Queue Ticket
  script : List Increment
  stop : Bool
  reporting : Bool
  /-- An exception has left the function of a thread, which ends the process. -/
  down : Bool
  scanStart : Option Micros
  pushed : ℕ
  walkErrors : ℕ
  trace : List (ℕ × Verdict)
  stats : PassStats
  shown : List PassStats
  stamp : Option Stamp

/-- What the calls of one step answer. -/
structure Answer where
  /-- What a call throws. -/
  thrown : Option Str := none
  stat : Option FileStat := none
  row : Option FileRow := none
  frames : ℕ := 0
  scanStart : Option Micros := none
  moved : ℕ := 0
  missing : ℕ := 0
  fileCount : ℕ := 0

inductive Event (n : ℕ)
  | raise
  | main (a : Answer)
  | worker (w : Fin n) (a : Answer)
  | reporter

section Machine

variable {n : ℕ}

def PassState.put (s : PassState n) (w : Fin n) (p : WorkerPlace) : PassState n :=
  { s with workers := Function.update s.workers w p }

/-- A verdict is counted, and the worker goes on at `p`. -/
def PassState.close (s : PassState n) (w : Fin n) (p : WorkerPlace) (i : ℕ) (v : Verdict) :
    PassState n :=
  { s.put w p with trace := s.trace ++ [(i, v)], stats := v.count s.stats }

def PassState.emit (cfg : PassConfig) (s : PassState n) : PassState n :=
  if cfg.progress then { s with shown := s.shown ++ [s.stats] } else s

/-- The walk is over: the queue is closed. -/
def PassState.endWalk (s : PassState n) (failed : Option Str) : PassState n :=
  { s with queue := closeSection s.queue, main := .joins 0 failed }

def cannotWalk (cfg : PassConfig) (message : Str) : Str :=
  "cannot walk root '".toList ++ cfg.label ++ "' at ".toList ++ cfg.path ++ ": ".toList ++ message

/-- The body of the walk's loop. -/
def walkNext (cfg : PassConfig) (s : PassState n) : PassState n :=
  match s.script with
  | [] => s.endWalk none
  | .failed :: rest => { s with script := rest, walkErrors := s.walkErrors + 1 }
  | .lost :: rest => { s with script := rest, walkErrors := s.walkErrors + 1 }.endWalk none
  | .entry e :: rest =>
    if s.stop then s.endWalk none
    else match offered cfg.ignore e with
      | none => { s with script := rest }
      | some i => { s with script := rest, main := .pushes i }

def pushNext (cfg : PassConfig) (s : PassState n) (i : WorkItem) : PassState n :=
  match pushSection cfg.capacity s.queue (s.pushed, i) with
  | none => s
  | some (true, q) => { s with queue := q, main := .walks, pushed := s.pushed + 1 }
  | some (false, q) => { s with queue := q, main := .walks }

/-- `pool[k].join()`, or the end of the pool. -/
def joinNext (s : PassState n) (k : ℕ) (failed : Option Str) : PassState n :=
  if h : k < n then
    match s.workers ⟨k, h⟩ with
    | .ended => { s.put ⟨k, h⟩ .joined with main := .joins (k + 1) failed }
    | _ => s
  else { s with main := .stopsReporter failed }

/-- The reporter is joined if there is one, the last totals are shown, and the pass goes on or the
error of the constructor is thrown. -/
def joinReporterNext (cfg : PassConfig) (s : PassState n) (failed : Option Str) : PassState n :=
  let place : MainPlace := failed.elim .links .threw
  match s.reporter with
  | .tests => s
  | .emits => s
  | .ended => { s.emit cfg with main := place, reporter := .joined }
  | _ => { s.emit cfg with main := place }

def reconcileNext (s : PassState n) (a : Answer) : PassState n :=
  if s.scanStart.isSome ∧ s.stop = false ∧ a.thrown = none then
    { s with main := .records, stats := { s.stats with moved := a.moved, missing := a.missing } }
  else { s with main := .records }

def recordNext (s : PassState n) (a : Answer) : PassState n :=
  match a.thrown with
  | some _ => { s with main := .returned }
  | none => { s with main := .returned, stamp := some (stampOf s.stats a.fileCount) }

/-- One step of the calling thread. -/
def mainNext (cfg : PassConfig) (s : PassState n) (a : Answer) : PassState n :=
  match s.main with
  | .loads => { s with main := .marks }
  | .marks => { s with main := .spawns 0, scanStart := a.scanStart }
  | .spawns k =>
    if h : k < n then { s.put ⟨k, h⟩ .connects with main := .spawns (k + 1) }
    else
      { s with
        main := .opens
        reporting := cfg.progress
        reporter := if cfg.progress then .tests else .absent }
  | .opens =>
    match a.thrown with
    | some message => s.endWalk (some (cannotWalk cfg message))
    | none => { s with main := .walks }
  | .walks => walkNext cfg s
  | .pushes i => pushNext cfg s i
  | .joins k failed => joinNext s k failed
  | .stopsReporter failed => { s with main := .joinsReporter failed, reporting := false }
  | .joinsReporter failed => joinReporterNext cfg s failed
  | .links => { s with main := .reconciles }
  | .reconciles => reconcileNext s a
  | .records => recordNext s a
  | .returned => s
  | .threw _ => s

/-- A worker has the `stat` of an item. -/
def statNext (cfg : PassConfig) (now : Int) (s : PassState n) (w : Fin n) (i : Ticket)
    (st : FileStat) : PassState n :=
  let s' : PassState n := { s with stats := { s.stats with seen := s.stats.seen + 1 } }
  if now - st.mtimeSec < cfg.settleSeconds then s'.close w .pops i.1 .settling
  else if i.2.artifactKind ≠ [] then s'.put w (.records i)
  else s'.put w (.selects i st)

/-- What a worker does with the row of a file. -/
def detect (i : Ticket) (st : FileStat) : Option FileRow → WorkerPlace
  | some r => if unchanged r st then .touches i else .reads i true
  | none => .reads i false

/-- One step of a worker. -/
def workerNext (cfg : PassConfig) (clock : Fin n → Int) (s : PassState n) (w : Fin n)
    (a : Answer) : PassState n :=
  match s.workers w with
  | .absent => s
  | .connects =>
    -- The connection is made outside every `try`.
    match a.thrown with
    | some _ => { s with down := true }
    | none => s.put w .isolates
  | .isolates => s.put w .pops
  | .pops =>
    match popSection s.queue with
    | none => s
    | some (none, q) => { s.put w .ended with queue := q }
    | some (some i, q) => { s.put w (.holds i) with queue := q }
  | .holds i => if s.stop then s.close w .pops i.1 .dropped else s.put w (.stats i)
  | .stats i =>
    match a.stat with
    | none => s.close w .pops i.1 .vanished
    | some st => statNext cfg (clock w) s w i st
  | .records i =>
    match a.thrown with
    | some _ => s.close w .pops i.1 .failed
    | none => s.close w .pops i.1 .recorded
  | .selects i st =>
    match a.thrown with
    | some _ => s.close w (.reports i) i.1 .failed
    | none => s.put w (detect i st a.row)
  | .touches i =>
    match a.thrown with
    | some _ => s.close w (.reports i) i.1 .failed
    | none => s.close w .pops i.1 .skipped
  | .reads i known =>
    match a.thrown with
    | some _ => s.close w (.reports i) i.1 .failed
    | none => s.put w (.stores i known)
  | .stores i known =>
    match a.thrown with
    | some _ => s.close w (.reports i) i.1 .failed
    | none => s.close w .pops i.1 (.stored known a.frames)
  | .reports _ => s.put w .pops
  | .ended => s
  | .joined => s

/-- One step of the reporter. -/
def reporterNext (cfg : PassConfig) (s : PassState n) : PassState n :=
  match s.reporter with
  | .tests => { s with reporter := if s.reporting then .emits else .ended }
  | .emits => { s.emit cfg with reporter := .tests }
  | .absent => s
  | .ended => s
  | .joined => s

/-- One event; nothing runs once the process is down. -/
def next (cfg : PassConfig) (clock : Fin n → Int) (s : PassState n) (e : Event n) : PassState n :=
  if s.down then s
  else match e with
    | .raise => { s with stop := true }
    | .main a => mainNext cfg s a
    | .worker w a => workerNext cfg clock s w a
    | .reporter => reporterNext cfg s

/-- `scan_root` is called for a tree whose walk yields `script`. -/
def start (script : List Increment) : PassState n where
  main := .loads
  workers _ := .absent
  reporter := .absent
  queue := {}
  script := script
  stop := false
  reporting := false
  down := false
  scanStart := none
  pushed := 0
  walkErrors := 0
  trace := []
  stats := {}
  shown := []
  stamp := none

/-! ### What a step of a worker can do -/

/-- The number of the item a worker has yet to account for. -/
def WorkerPlace.ticket : WorkerPlace → Option ℕ
  | .holds i => some i.1
  | .stats i => some i.1
  | .records i => some i.1
  | .selects i _ => some i.1
  | .touches i => some i.1
  | .reads i _ => some i.1
  | .stores i _ => some i.1
  | _ => none

/-- The function of the worker has returned. -/
def WorkerPlace.isOver : WorkerPlace → Bool
  | .ended => true
  | .joined => true
  | _ => false

/-- A call is made for an item whose exception the worker counts. -/
def WorkerPlace.serves : WorkerPlace → Bool
  | .records _ => true
  | .selects _ _ => true
  | .touches _ => true
  | .reads _ _ => true
  | .stores _ _ => true
  | _ => false

/-- The worker is started and has not returned. -/
def WorkerPlace.isRunning (p : WorkerPlace) : Prop := p ≠ .absent ∧ p.isOver = false

/-- How many steps a worker is from its end at most, without the items it has yet to take. -/
def WorkerPlace.cost : WorkerPlace → ℕ
  | .absent => 5
  | .connects => 4
  | .isolates => 3
  | .pops => 2
  | .holds _ => 8
  | .stats _ => 7
  | .records _ => 3
  | .selects _ _ => 6
  | .touches _ => 4
  | .reads _ _ => 5
  | .stores _ _ => 4
  | .reports _ => 3
  | .ended => 1
  | .joined => 0

/-- A worker goes from one place to another as it runs. -/
structure Moves (p q : WorkerPlace) : Prop where
  running : p.isRunning
  runs : q.isRunning
  closer : q.cost < p.cost

def PassState.see (s : PassState n) (k : ℕ) : PassState n :=
  { s with stats := { s.stats with seen := k } }

/-- All a step of the worker `w` can do with the answer `a`. -/
inductive WorkerStep (s : PassState n) (w : Fin n) (a : Answer) : PassState n → Prop
  | stays : ((s.workers w).isRunning →
        s.workers w = .pops ∧ s.queue.items = [] ∧ s.queue.closed = false) →
      WorkerStep s w a s
  | crashes : s.workers w = .connects → a.thrown ≠ none →
      WorkerStep s w a { s with down := true }
  | moves (k : ℕ) (p : WorkerPlace) : Moves (s.workers w) p →
      p.ticket = (s.workers w).ticket → WorkerStep s w a ((s.see k).put w p)
  | takes (i : Ticket) (rest : List Ticket) : s.workers w = .pops → s.queue.items = i :: rest →
      WorkerStep s w a { s.put w (.holds i) with queue := { s.queue with items := rest } }
  | ends : s.workers w = .pops → s.queue.items = [] → s.queue.closed = true →
      WorkerStep s w a (s.put w .ended)
  | closes (k : ℕ) (p : WorkerPlace) (i : ℕ) (v : Verdict) : Moves (s.workers w) p →
      (s.workers w).ticket = some i → p.ticket = none →
      (v = .dropped → s.stop = true ∧ ∃ i, s.workers w = .holds i) →
      (v = .failed → (s.workers w).serves = true ∧ a.thrown ≠ none) →
      WorkerStep s w a ((s.see k).close w p i v)

theorem detect_running (i : Ticket) (st : FileStat) (row : Option FileRow) :
    (detect i st row).isRunning ∧ (detect i st row).ticket = some i.1 ∧
      (detect i st row).cost < 6 := by
  unfold detect
  cases row with
  | none => exact ⟨⟨nofun, rfl⟩, rfl, (by decide : 5 < 6)⟩
  | some r =>
    dsimp only
    split_ifs
    · exact ⟨⟨nofun, rfl⟩, rfl, (by decide : 4 < 6)⟩
    · exact ⟨⟨nofun, rfl⟩, rfl, (by decide : 5 < 6)⟩

section Places

variable {s : PassState n} {w : Fin n} {a : Answer} {q : WorkerPlace}

theorem worker_moves (h : s.workers w = q) (hq : q.isRunning) (p : WorkerPlace) (hp : p.isRunning)
    (ht : p.ticket = q.ticket) (hc : p.cost < q.cost) (k : ℕ) :
    WorkerStep s w a ((s.see k).put w p) := by
  refine .moves k p ?_ ?_
  · rw [h]
    exact ⟨hq, hp, hc⟩
  · rw [h, ht]

theorem worker_closes {i : ℕ} (h : s.workers w = q) (hq : q.isRunning) (hi : q.ticket = some i)
    (p : WorkerPlace) (hp : p.isRunning) (ht : p.ticket = none) (hc : p.cost < q.cost) (k : ℕ)
    {v : Verdict} (hv : v = .dropped → s.stop = true ∧ ∃ i, s.workers w = .holds i)
    (hf : v = .failed → q.serves = true ∧ a.thrown ≠ none) :
    WorkerStep s w a ((s.see k).close w p i v) := by
  refine .closes k p i v ?_ ?_ ht hv ?_
  · rw [h]
    exact ⟨hq, hp, hc⟩
  · rw [h, hi]
  · rw [h]
    exact hf

/-- An item is settled at `pops`. -/
theorem worker_finishes {i : ℕ} (h : s.workers w = q) (hq : q.isRunning) (hi : q.ticket = some i)
    (hc : 2 < q.cost) (k : ℕ) {v : Verdict}
    (hv : v = .dropped → s.stop = true ∧ ∃ i, s.workers w = .holds i)
    (hf : v = .failed → q.serves = true ∧ a.thrown ≠ none) :
    WorkerStep s w a ((s.see k).close w .pops i v) :=
  worker_closes h hq hi .pops ⟨nofun, rfl⟩ rfl hc k hv hf

/-- An item is counted as failed, and its error row comes next. -/
theorem worker_fails {i : Ticket} (h : s.workers w = q) (hq : q.isRunning)
    (hi : q.ticket = some i.1) (hc : 3 < q.cost) (hserves : q.serves = true)
    (ha : a.thrown ≠ none) :
    WorkerStep s w a (s.close w (.reports i) i.1 .failed) :=
  worker_closes h hq hi (.reports i) ⟨nofun, rfl⟩ rfl hc s.stats.seen nofun
    fun _ => ⟨hserves, ha⟩

end Places

/-- **All a step of a worker can do.** -/
theorem worker_step (cfg : PassConfig) (clock : Fin n → Int) (s : PassState n) (w : Fin n)
    (a : Answer) : WorkerStep s w a (workerNext cfg clock s w a) := by
  -- One case for each place; the counter of files seen moves only after `stat`.
  have hne : ∀ e, a.thrown = some e → a.thrown ≠ none := by
    intro e ha
    rw [ha]
    exact nofun
  unfold workerNext
  cases h : s.workers w with
  | absent => exact .stays fun hrun => absurd h hrun.1
  | connects =>
    cases ha : a.thrown with
    | some e => exact .crashes h (hne e ha)
    | none =>
      exact worker_moves h ⟨nofun, rfl⟩ .isolates ⟨nofun, rfl⟩ rfl (by decide) s.stats.seen
  | isolates => exact worker_moves h ⟨nofun, rfl⟩ .pops ⟨nofun, rfl⟩ rfl (by decide) s.stats.seen
  | pops =>
    unfold popSection
    cases hq : s.queue.items with
    | nil =>
      cases hc : s.queue.closed with
      | true => exact WorkerStep.ends h hq hc
      | false => exact WorkerStep.stays fun _ => ⟨h, hq, hc⟩
    | cons i rest => exact WorkerStep.takes i rest h hq
  | holds i =>
    dsimp only
    cases hs : s.stop with
    | true =>
      exact worker_finishes h ⟨nofun, rfl⟩ rfl (by decide : 2 < 8) s.stats.seen
        (fun _ => ⟨hs, i, h⟩) nofun
    | false =>
      exact worker_moves h ⟨nofun, rfl⟩ (.stats i) ⟨nofun, rfl⟩ rfl (by decide : 7 < 8) s.stats.seen
  | stats i =>
    dsimp only
    cases a.stat with
    | none =>
      exact worker_finishes h ⟨nofun, rfl⟩ rfl (by decide : 2 < 7) s.stats.seen nofun nofun
    | some st =>
      unfold statNext
      dsimp only
      split_ifs
      · exact worker_finishes h ⟨nofun, rfl⟩ rfl (by decide : 2 < 7) _ nofun nofun
      · exact worker_moves h ⟨nofun, rfl⟩ (.records i) ⟨nofun, rfl⟩ rfl (by decide : 3 < 7) _
      · exact worker_moves h ⟨nofun, rfl⟩ (.selects i st) ⟨nofun, rfl⟩ rfl (by decide : 6 < 7) _
  | records i =>
    cases ha : a.thrown with
    | some e =>
      exact worker_finishes h ⟨nofun, rfl⟩ rfl (by decide : 2 < 3) s.stats.seen nofun
        fun _ => ⟨rfl, hne e ha⟩
    | none => exact worker_finishes h ⟨nofun, rfl⟩ rfl (by decide : 2 < 3) s.stats.seen nofun nofun
  | selects i st =>
    cases ha : a.thrown with
    | some e => exact worker_fails h ⟨nofun, rfl⟩ rfl (by decide : 3 < 6) rfl (hne e ha)
    | none =>
      obtain ⟨hrun, hticket, hcost⟩ := detect_running i st a.row
      exact worker_moves h ⟨nofun, rfl⟩ _ hrun hticket hcost s.stats.seen
  | touches i =>
    cases ha : a.thrown with
    | some e => exact worker_fails h ⟨nofun, rfl⟩ rfl (by decide : 3 < 4) rfl (hne e ha)
    | none => exact worker_finishes h ⟨nofun, rfl⟩ rfl (by decide : 2 < 4) s.stats.seen nofun nofun
  | reads i known =>
    cases ha : a.thrown with
    | some e => exact worker_fails h ⟨nofun, rfl⟩ rfl (by decide : 3 < 5) rfl (hne e ha)
    | none =>
      exact worker_moves h ⟨nofun, rfl⟩ (.stores i known) ⟨nofun, rfl⟩ rfl (by decide : 4 < 5)
        s.stats.seen
  | stores i known =>
    cases ha : a.thrown with
    | some e => exact worker_fails h ⟨nofun, rfl⟩ rfl (by decide : 3 < 4) rfl (hne e ha)
    | none => exact worker_finishes h ⟨nofun, rfl⟩ rfl (by decide : 2 < 4) s.stats.seen nofun nofun
  | reports i =>
    exact worker_moves h ⟨nofun, rfl⟩ .pops ⟨nofun, rfl⟩ rfl (by decide : 2 < 3) s.stats.seen
  | ended => exact .stays fun hrun => absurd hrun.2 (by rw [h]; nofun)
  | joined => exact .stays fun hrun => absurd hrun.2 (by rw [h]; nofun)

end Machine

end StarBase.Scan.Pass
