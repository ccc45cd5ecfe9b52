import StarBase.Scan.ReconcileSpec
import StarBase.Scan.Worker

/-!
# Sweeps of a disk that is written to

A history of a root: files are written and removed at any moment, and sweep follows sweep.  The clock
is one for the modification times and for the workers.  A worker's clock is read when it starts, the
`stat` of a file, the query for its row, the reading of its header and the write to the index are
steps of their own, and anything may happen to the disk in between.

* `World`, `WorldEvent`, `next` — the disk, the index and the sweep under way;
* `lastStored` — the header that the last successful store of a file was given;
* `Orderly` — the walk yields a file once, the reconciliation waits for the workers, and no file is
  moved;
* `Faithful` — a file skipped as unchanged had, when it was looked at, the header that is stored for
  it.

A stop flag that goes up between a worker's test and its query is one that goes up after the query.
-/

namespace StarBase.Scan.History

open Relational Extract

/-- A file on the disk: the instant of its last write in nanoseconds, and what `read_header` makes of
its content. -/
structure FileOnDisk where
  size : Int
  inode : Int
  written : Int
  header : Except Str RawHeader

/-- The whole second of an instant. -/
def seconds (t : Int) : Int := t / 1000000000

theorem seconds_mono {a b : Int} (h : a ≤ b) : seconds a ≤ seconds b := by
  unfold seconds
  omega

def FileOnDisk.stat (f : FileOnDisk) : FileStat where
  size := f.size
  mtimeSec := seconds f.written
  mtimeNsec := f.written % 1000000000
  inode := f.inode

/-- The stored time keeps the second. -/
theorem wholeSecond_mtime (f : FileOnDisk) : wholeSecond f.stat.mtime = f.stat.mtimeSec := by
  show (f.written / 1000000000 * 1000000 + (f.written % 1000000000 / 1000) % 1000000) / 1000000 =
    f.written / 1000000000
  omega

/-! ### The world -/

/-- The disk by path as the root's file system compares paths, the sweep under way, and what became
of the files of earlier sweeps.  `looked w` says that the disk has answered for the file the worker
`w` has in hand, `offered` lists the files the walk has yielded. -/
structure World (W : Type) [Host] where
  now : Int
  disk : Str → Option FileOnDisk
  sweep : SweepState W
  store : StoreContext
  clock : W → Option Int
  looked : W → Bool
  offered : List (ℕ × Str)
  past : List (Entry W)

inductive WorldEvent (W : Type)
  | tick (d : ℕ)
  | write (p : Str) (size inode : Int) (header : Except Str RawHeader)
  | remove (p : Str)
  /-- A sweep starts, with its snapshot of mapping, site and registry; whatever the last one had under
  way is gone. -/
  | begin (store : StoreContext)
  /-- The walk yields a file. -/
  | offer (p : Str)
  /-- A worker reads the clock. -/
  | enter (w : W)
  | stat (w : W)
  | read (w : W)
  /-- A worker takes its next step at an instant of the server's clock. -/
  | work (w : W) (t : Micros)
  /-- A call of a worker fails. -/
  | fault (w : W) (t : Micros) (what : Str)
  | stop
  | reconcile (ss : Micros) (prior : ℕ) (order : RowOrder) (moment : ℕ → Micros)

section Machine

variable [Host] {W : Type}

/-- The file system's name of a path. -/
def foldPath (cfg : SweepConfig) (p : Str) : Str := hashPath cfg.caseSensitive p

def keyOf (cfg : SweepConfig) (p : Str) : ℕ × Str := (cfg.rootId, Host.md5 (foldPath cfg p))

/-- The item queued for a path; the disk has not answered yet. -/
def itemOf (p : Str) : Offer where
  relPath := p
  filename := fileName p
  ext := extension (fileName p)
  stat := none
  header := .error []

/-- What `read_header` throws for a file that is gone. -/
def cannotOpen : Except Str RawHeader := .error "cannot open file".toList

def headerNow (cfg : SweepConfig) (s : World W) (o : Offer) : Except Str RawHeader :=
  ((s.disk (foldPath cfg o.relPath)).map FileOnDisk.header).getD cannotOpen

/-- `stat`, along with the header of the content at that instant. -/
def statNow (cfg : SweepConfig) (s : World W) (o : Offer) : Offer :=
  { o with
    stat := (s.disk (foldPath cfg o.relPath)).map FileOnDisk.stat
    header := headerNow cfg s o }

section Steps

variable [DecidableEq W]

/-- What the worker has in hand, refreshed. -/
def World.see (s : World W) (w : W) (h : Hand) : World W :=
  { s with sweep := s.sweep.put w h, looked := Function.update s.looked w true }

/-- The disk has answered what the next step of the worker needs. -/
def World.ready (s : World W) (w : W) : Bool :=
  match s.sweep.hands w with
  | .idle => (s.clock w).isSome
  | .popped _ => s.looked w || s.sweep.stopped
  | .store _ _ _ => s.looked w
  | _ => true

def World.config (cfg : SweepConfig) (s : World W) : SweepConfig := { cfg with store := s.store }

def World.clockOf (s : World W) (w : W) : Int := (s.clock w).getD 0

/-- A call made for a file throws; the exception is kept for the error row, whose own failure ends
the matter. -/
def faultNext (s : World W) (w : W) (t : Micros) (what : Str) : World W :=
  match s.sweep.hands w with
  | .idle => s
  | .popped o => o.stat.elim s fun st => { s with sweep := s.sweep.put w (.failed o st what) }
  | .touch o _ => o.stat.elim s fun st => { s with sweep := s.sweep.put w (.failed o st what) }
  | .store o st _ => { s with sweep := s.sweep.put w (.failed o st what) }
  | .failed o _ _ => { s with sweep := s.sweep.finish w o (.refused t what) }

def next (cfg : SweepConfig) (s : World W) : WorldEvent W → World W
  | .tick d => { s with now := s.now + d }
  | .write p size inode header =>
    { s with
      disk := Function.update s.disk (foldPath cfg p)
        (some { size := size, inode := inode, written := s.now, header := header }) }
  | .remove p => { s with disk := Function.update s.disk (foldPath cfg p) none }
  | .begin store =>
    { s with
      sweep := start [] s.sweep.db
      store := store
      clock := fun _ => none
      looked := fun _ => false
      offered := []
      past := s.past ++ s.sweep.trace }
  | .offer p =>
    { s with
      sweep := { s.sweep with queue := s.sweep.queue ++ [itemOf p] }
      offered := s.offered ++ [keyOf cfg p] }
  | .enter w =>
    if (s.clock w).isSome then s
    else { s with clock := Function.update s.clock w (some (seconds s.now)) }
  | .stat w =>
    match s.sweep.hands w with
    | .popped o => s.see w (.popped (statNow cfg s o))
    | _ => s
  | .read w =>
    match s.sweep.hands w with
    | .store o st known => s.see w (.store { o with header := headerNow cfg s o } st known)
    | _ => s
  | .work w t =>
    if s.ready w then
      { s with
        sweep := Scan.next (s.config cfg) s.clockOf s.sweep (.work w t)
        looked := Function.update s.looked w false }
    else s
  | .fault w t what => faultNext s w t what
  | .stop => { s with sweep := { s.sweep with stopped := true } }
  | .reconcile ss prior order moment =>
    { s with
      sweep := { s.sweep with
        db := (reconcileRoot cfg.rootId ss prior order moment s.sweep.db).db } }

end Steps

/-- An index, and a disk that is empty. -/
def fresh (db : IndexDb) (now : Int) (store : StoreContext) : World W where
  now := now
  disk := fun _ => none
  sweep := start [] db
  store := store
  clock := fun _ => none
  looked := fun _ => false
  offered := []
  past := []

/-- What became of all files so far. -/
def World.trace (s : World W) : List (Entry W) := s.past ++ s.sweep.trace

/-- The header that a store of the file with the key `k` was given. -/
def storedBy (cfg : SweepConfig) (k : ℕ × Str) (e : Entry W) : Option RawHeader :=
  if e.offer.key cfg = k then
    match e.outcome, e.offer.header with
    | .stored _, .ok h => some h
    | _, _ => none
  else none

/-- The header that the last successful store of the file was given. -/
def lastStored (cfg : SweepConfig) (trace : List (Entry W)) (k : ℕ × Str) : Option RawHeader :=
  trace.reverse.findSome? (storedBy cfg k)

/-- No file is taken and none is waiting. -/
def World.AtRest (s : World W) : Prop := s.sweep.queue = [] ∧ ∀ w, s.sweep.hands w = .idle

/-- The walk of a sweep yields a file once, the reconciliation comes when the workers are done, and it
finds no file that was moved. -/
def Orderly (cfg : SweepConfig) (s : World W) : WorldEvent W → Prop
  | .offer p => keyOf cfg p ∉ s.offered
  | .reconcile ss _ _ _ => s.AtRest ∧ ∀ v a, ¬ Moved s.sweep.db cfg.rootId ss v a
  | _ => True

/-! ### Stored headers -/

theorem lastStored_append (cfg : SweepConfig) (l : List (Entry W)) (e : Entry W) (k : ℕ × Str) :
    lastStored cfg (l ++ [e]) k = (storedBy cfg k e).or (lastStored cfg l k) := by
  unfold lastStored
  rw [List.reverse_append]
  show ([e] ++ l.reverse).findSome? _ = _
  rw [List.findSome?_append]
  simp

theorem storedBy_ne {cfg : SweepConfig} {k : ℕ × Str} {e : Entry W} (h : e.offer.key cfg ≠ k) :
    storedBy cfg k e = none := if_neg h

/-- Only a store gives a file a header. -/
theorem storedBy_other {cfg : SweepConfig} {k : ℕ × Str} {e : Entry W}
    (h : ∀ t, e.outcome ≠ .stored t) : storedBy cfg k e = none := by
  unfold storedBy
  split_ifs
  · split
    · rename_i t _ ht _
      exact absurd ht (h t)
    · rfl
  · rfl

theorem lastStored_other {cfg : SweepConfig} {l : List (Entry W)} {e : Entry W} {k : ℕ × Str}
    (h : storedBy cfg k e = none) : lastStored cfg (l ++ [e]) k = lastStored cfg l k := by
  rw [lastStored_append, h]
  rfl

/-- Every file skipped so far had the header that was stored for it. -/
def Faithful (cfg : SweepConfig) (l : List (Entry W)) : Prop :=
  ∀ i e t, l[i]? = some e → e.outcome = .touched t →
    ∃ h, e.offer.header = .ok h ∧ lastStored cfg (l.take i) (e.offer.key cfg) = some h

theorem faithful_append {cfg : SweepConfig} {l : List (Entry W)} {e : Entry W}
    (h : Faithful cfg l) (he : ∀ t, e.outcome = .touched t →
      ∃ h, e.offer.header = .ok h ∧ lastStored cfg l (e.offer.key cfg) = some h) :
    Faithful cfg (l ++ [e]) := by
  intro i e' t hi ht
  rcases lt_trichotomy i l.length with hlt | rfl | hgt
  · rw [List.getElem?_append_left hlt] at hi
    rw [List.take_append_of_le_length (le_of_lt hlt)]
    exact h i e' t hi ht
  · rw [List.getElem?_append_right (le_refl _), Nat.sub_self] at hi
    cases hi
    rw [List.take_left']
    · exact he t ht
    · rfl
  · rw [List.getElem?_eq_none (by simp; omega)] at hi
    cases hi

end Machine

end StarBase.Scan.History
