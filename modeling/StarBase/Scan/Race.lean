import StarBase.Action.WriteBack
import StarBase.Lib.Run
import StarBase.Scan.Conserve
import StarBase.Scan.Derived

/-!
# A scan worker and a file operation on one file

While a worker of a sweep takes a file through `stat`, the `SELECT` of its row, and one write, a
move or trash renames the file away and writes the row back.  Neither side holds a lock or checks
again before it writes.

* `raceStep` — one step of either side, the worker's or the operation's;
* `NoGhost` — no row with status `ok` is at a path where nothing is;
* `Late` — the worker's write comes after the operation is done with a file that is gone;
* `race_settles` — **PROVED**: when both have ended and the sweep's `reconcile_root` has run, no row
  is a ghost if no step was late, and one is if some step was.

There is one file, one worker and one operation on it.
-/

namespace StarBase.Scan

open Relational Extract FileTree
open StarBase.Action (Files SysFaults relocate maxSymlinks copyFile copyFile_ok renameFile
  renameFile_ok rootFor rootFor_some rootFor_eq_none_iff relUnder underRoot_cases anchored RowAt
  PathFree writtenFiles writtenFiles_isSome_iff)

/-! ### The two sides -/

/-- One file that both sides work on: the worker by the path its walk found, the operation by the
path in the row. -/
structure Race where
  cfg : SweepConfig
  rootPath : Str
  offer : Offer
  /-- The worker's clock. -/
  clock : Int
  /-- What the reader says of a file that is not there. -/
  cannotOpen : Str
  roots : List (ℕ × Str)
  /-- How the operating system resolves a path. -/
  locate : Str → Str
  fileId : ℕ
  src : Str
  dst : Str
  rootIds_nodup : (roots.map Prod.fst).Nodup
  root_mem : (cfg.rootId, rootPath) ∈ roots
  same_file : locate (rootPath ++ '/' :: offer.relPath) = locate src

/-- Where the worker is. -/
inductive WorkerAt
  | popped
  | statted (st : FileStat)
  | touching (id : ℕ)
  | reading (st : FileStat)
  | storing (st : FileStat) (header : RawHeader)
  | failing (st : FileStat) (what : Str)
  | finished

/-- Where the operation is. -/
inductive MoverAt
  | before
  | renamed
  | finished
  deriving DecidableEq

structure RaceState [Host] where
  tree : Files
  db : IndexDb
  caches : Caches
  worker : WorkerAt
  mover : MoverAt

/-- A step of the worker at an instant, or of the operation at an instant with the errors the
operating system gives it. -/
inductive RaceStep
  | scan (t : Micros)
  | act (x : SysFaults) (t : Micros)

section Steps

variable [Host] (c : Race)

/-- The path the worker uses. -/
def Race.absPath : Str := c.rootPath ++ '/' :: c.offer.relPath

/-- The file can be opened at the worker's path. -/
def Race.opens (tree : Files) : Bool :=
  (readContent c.locate (maxSymlinks + 1) tree (c.locate c.absPath)).isSome

/-- One step of the worker. -/
def scanStep (t : Micros) (s : RaceState) : RaceState :=
  match s.worker with
  | .popped =>
    match c.opens s.tree, c.offer.stat with
    | true, some st =>
      if unsettled c.cfg c.clock st then { s with worker := .finished }
      else { s with worker := .statted st }
    | _, _ => { s with worker := .finished }
  | .statted st =>
    match plan c.cfg s.db c.offer st with
    | .touch _ id => { s with worker := .touching id }
    | _ => { s with worker := .reading st }
  | .touching id => { s with db := touchDb s.db id t, worker := .finished }
  | .reading st =>
    match c.opens s.tree, c.offer.header with
    | true, .ok header => { s with worker := .storing st header }
    | true, .error what => { s with worker := .failing st what }
    | false, _ => { s with worker := .failing st c.cannotOpen }
  | .storing st header =>
    match storeFile c.cfg.store t (c.offer.info c.cfg st) header ⟨s.db, s.caches⟩ with
    | (.ok _, r) => { s with db := r.db, caches := r.caches, worker := .finished }
    | (.error e, r) => { s with db := r.db, caches := r.caches, worker := .failing st (Thrown.what e) }
  | .failing st what =>
    { s with
      db := if errorAccepted c.cfg c.offer st what then errorDb c.cfg s.db c.offer st what t else s.db
      worker := .finished }
  | .finished => s

/-- One step of the operation: the system calls, which move and trash share, then the row.  An item
whose calls fail is recorded and its row left alone; a refused `UPDATE` ends the operation too. -/
def actStep (x : SysFaults) (t : Micros) (s : RaceState) : RaceState :=
  match s.mover with
  | .before =>
    match relocate c.locate x s.tree c.src c.dst with
    | (.ok _, u) => { s with tree := u, mover := .renamed }
    | (.error _, u) => { s with tree := u, mover := .finished }
  | .renamed => { s with db := writeBackDb c.roots t c.fileId c.dst s.db, mover := .finished }
  | .finished => s

def raceStep (s : RaceState) : RaceStep → RaceState
  | .scan t => scanStep c t s
  | .act x t => actStep c x t s

/-- Both sides have ended. -/
def RaceState.Done (s : RaceState) : Prop := s.worker = .finished ∧ s.mover = .finished

/-! ### What is asked of them -/

/-- No `ok` row is at a path where nothing is. -/
def NoGhost (tree : Files) (files : Table fileKeying) : Prop :=
  ∀ q ∈ files.rows, q.status = .ok → ∀ p, RowAt c.roots q p → tree (c.locate p) ≠ none

/-- Before the first step the file is there, its row is the one under the worker's key, and no row
is a ghost. -/
structure Begins (s : RaceState) : Prop where
  worker : s.worker = .popped
  mover : s.mover = .before
  file : s.tree (c.locate c.src) ≠ none
  row : ∃ q, s.db.files.get (c.offer.key c.cfg) = some q ∧ q.id = c.fileId ∧ RowAt c.roots q c.src
  real : NoGhost c s.tree s.db.files

/-- The worker's write makes its row `ok` after the operation is done with the file and the file is
gone.  A touch does so when the operation marked the row missing. -/
def Late (s : RaceState) : RaceStep → Prop
  | .scan t =>
    s.mover = .finished ∧ s.tree (c.locate c.src) = none ∧
      match s.worker with
      | .touching _ => rootFor c.roots c.dst = none
      | .storing st header => ∃ r,
          storeFile c.cfg.store t (c.offer.info c.cfg st) header ⟨s.db, s.caches⟩ = (.ok (), r)
      | _ => False
  | .act _ _ => False

/-- The operation's own steps write the index as sweeps expect: no other `ok` row names the file
when it is moved, no row holds the path it moves to, and that is not the path of a root. -/
def Plain (s : RaceState) : RaceStep → Prop
  | .scan _ => True
  | .act _ _ =>
    match s.mover with
    | .before => ∀ q ∈ s.db.files.rows, q.status = .ok → q.id ≠ c.fileId →
        ∀ p, RowAt c.roots q p → c.locate p ≠ c.locate c.src
    | .renamed => PathFree c.roots s.db.files c.fileId c.dst ∧ ∀ r ∈ c.roots, r.2 ≠ c.dst
    | .finished => True

end Steps

/-! ### The system calls -/

section Calls

variable {locate : Str → Str} {x : SysFaults} {t u : Files} {src dst : Str}

/-- A relocation that succeeds takes away at most its source, and fills its destination. -/
theorem relocate_ok (h : relocate locate x t src dst = (.ok (), u)) :
    u (locate dst) ≠ none ∧ ∀ l, l ≠ locate src → t l ≠ none → u l ≠ none := by
  unfold relocate at h
  cases hr : renameFile locate x.rename t src dst with
  | ok v =>
    rw [hr] at h
    cases h
    obtain ⟨_, hsrc, rfl⟩ := renameFile_ok hr
    by_cases hne : locate src = locate dst
    · rw [hne, rename_self]
      exact ⟨hne ▸ hsrc, fun _ _ hl => hl⟩
    · refine ⟨by rwa [rename_dst t hne], fun l hl htl => ?_⟩
      by_cases hd : l = locate dst
      · rw [hd, rename_dst t hne]
        exact hsrc
      · rwa [rename_other t hd hl]
  | error msg =>
    rw [hr] at h
    dsimp only at h
    cases hc : copyFile locate x.copy t src dst with
    | error msg =>
      rw [hc] at h
      cases h
    | ok v =>
      rw [hc] at h
      cases hx : x.remove with
      | some msg =>
        rw [hx] at h
        cases h
      | none =>
        rw [hx] at h
        cases h
        obtain ⟨k, hk, hfree, rfl⟩ := copyFile_ok hc
        have hne : locate dst ≠ locate src := by
          intro he
          unfold readContent at hk
          rw [← he, hfree] at hk
          cases hk
        refine ⟨by simp [remove, put, hne], fun l hl htl => ?_⟩
        by_cases hd : l = locate dst
        · simp [remove, put, hd, hne]
        · simpa [remove, put, hl, hd] using htl

/-- A relocation that fails takes nothing away. -/
theorem relocate_error {msg : Str} (h : relocate locate x t src dst = (.error msg, u)) {l : Str}
    (hl : t l ≠ none) : u l ≠ none := by
  unfold relocate at h
  cases hr : renameFile locate x.rename t src dst with
  | ok v =>
    rw [hr] at h
    cases h
  | error e =>
    rw [hr] at h
    dsimp only at h
    cases hc : copyFile locate x.copy t src dst with
    | error e =>
      rw [hc] at h
      cases h
      exact hl
    | ok v =>
      rw [hc] at h
      cases hx : x.remove with
      | none =>
        rw [hx] at h
        cases h
      | some e =>
        rw [hx] at h
        cases h
        obtain ⟨k, _, _, rfl⟩ := copyFile_ok hc
        unfold put
        split
        · simp
        · exact hl

end Calls

section Rows

variable {c : Race}

/-! ### Rows and their paths -/

/-- A row is at one path. -/
theorem rowAt_unique {q : FileRow} {p p' : Str} (h : RowAt c.roots q p) (h' : RowAt c.roots q p') :
    p = p' := by
  obtain ⟨r, hr, hid, rfl⟩ := h
  obtain ⟨r', hr', hid', rfl⟩ := h'
  rw [List.inj_on_of_nodup_map c.rootIds_nodup hr hr' (hid.trans hid'.symm)]

theorem rowAt_congr (q q' : FileRow) (hroot : q'.rootId = q.rootId) (hrel : q'.relPath = q.relPath)
    {p : Str} : RowAt c.roots q' p ↔ RowAt c.roots q p := by
  unfold RowAt
  rw [hroot, hrel]

/-- A row of the sweep's root is below the root's path. -/
theorem rowAt_of_root {q : FileRow} (h : q.rootId = c.cfg.rootId) :
    RowAt c.roots q (c.rootPath ++ '/' :: q.relPath) :=
  ⟨(c.cfg.rootId, c.rootPath), c.root_mem, h.symm, rfl⟩

/-- The row's path is where the file was. -/
def AtSrc (c : Race) (q : FileRow) : Prop := ∀ p, RowAt c.roots q p → c.locate p = c.locate c.src

/-- A row under the path the worker uses is where the file was. -/
theorem atSrc_of_stored {q : FileRow} (hroot : q.rootId = c.cfg.rootId)
    (hrel : q.relPath = c.offer.relPath) : AtSrc c q := by
  intro p hp
  rw [rowAt_unique hp (rowAt_of_root hroot), hrel]
  exact c.same_file

end Rows

section Proof

variable [Host] {c : Race} {s : RaceState} {files : Table fileKeying}

/-- The worker's key holds the row of the file, and its path is where the file was. -/
def Holds (c : Race) (files : Table fileKeying) : Prop :=
  ∃ q, files.get (c.offer.key c.cfg) = some q ∧ q.id = c.fileId ∧ AtSrc c q

theorem root_of_key {q : FileRow} (h : files.get (c.offer.key c.cfg) = some q) :
    q.rootId = c.cfg.rootId :=
  congrArg Prod.fst (Table.get_key h)

theorem Begins.holds (h : Begins c s) : Holds c s.db.files := by
  obtain ⟨q, hq, hid, hat⟩ := h.row
  exact ⟨q, hq, hid, fun p hp => by rw [rowAt_unique hp hat]⟩

/-- The row with the file's id is the one under the key. -/
theorem Holds.atSrc (h : Holds c files) {q : FileRow} (hq : q ∈ files.rows)
    (hid : q.id = c.fileId) : AtSrc c q := by
  obtain ⟨r, hr, hrid, hat⟩ := h
  have hqr : q = r := files.eq_of_id hq (Table.get_mem hr) (hid.trans hrid.symm)
  rw [hqr]
  exact hat

theorem Holds.mem_ids (h : Holds c files) : c.fileId ∈ files.ids := by
  obtain ⟨r, hr, hrid, _⟩ := h
  exact Table.mem_ids.mpr ⟨r, Table.get_mem hr, hrid⟩

/-- An update that leaves the paths alone keeps the row of the file. -/
theorem Holds.modify (h : Holds c files) (P : FileRow → Bool) (f : RowUpdate fileKeying)
    (hf : ∀ r, (f.apply r).relPath = r.relPath) : Holds c (files.modify P f) := by
  obtain ⟨r, hr, hrid, hat⟩ := h
  refine ⟨if P r then f.apply r else r, ?_, ?_, ?_⟩
  · rw [Table.get_modify, hr]
    rfl
  · split
    · exact (f.id_apply r).trans hrid
    · exact hrid
  · split
    · exact fun p hp => hat p ((rowAt_congr _ _ (congrArg Prod.fst (f.key_apply r)) (hf r)).mp hp)
    · exact hat

/-- So does an upsert that leaves the path of the row alone or makes it the worker's. -/
theorem Holds.upsert (h : Holds c files) (mk : RowMaker fileKeying (c.offer.key c.cfg))
    (upd : RowUpdate fileKeying)
    (hupd : ∀ r, (upd.apply r).relPath = r.relPath ∨ (upd.apply r).relPath = c.offer.relPath) :
    Holds c (files.upsert (c.offer.key c.cfg) mk upd) := by
  obtain ⟨r, hr, hrid, hat⟩ := h
  have hroot : (upd.apply r).rootId = r.rootId := congrArg Prod.fst (upd.key_apply r)
  refine ⟨upd.apply r, Table.get_upsert_of_some hr, (upd.id_apply r).trans hrid, ?_⟩
  rcases hupd r with hsame | hmine
  · exact fun p hp => hat p ((rowAt_congr _ _ hroot hsame).mp hp)
  · exact atSrc_of_stored (hroot.trans (root_of_key hr)) hmine

/-! ### The row of the file through the steps -/

/-- Nothing else gets the worker's key, what it touches is the row of the file, and that row stays
where it was unless it was moved within the index. -/
structure Tracked (c : Race) (s : RaceState) : Prop where
  only : s.worker ≠ .finished → ∀ q ∈ s.db.files.rows,
    (q.rootId, q.relPathHash) = c.offer.key c.cfg → q.id = c.fileId
  touches : ∀ id, s.worker = .touching id → id = c.fileId
  holds : (s.mover = .finished → rootFor c.roots c.dst = none) → Holds c s.db.files

theorem Begins.tracked (h : Begins c s) : Tracked c s where
  only _ q hq hk := by
    obtain ⟨r, hr, hrid, _⟩ := h.row
    have hqr : q = r := s.db.files.eq_of_key hq (Table.get_mem hr) (hk.trans (Table.get_key hr).symm)
    rw [hqr]
    exact hrid
  touches id hid := by
    rw [h.worker] at hid
    cases hid
  holds _ := h.holds

/-- A step of the worker leaves the operation and the disk alone. -/
theorem scanStep_tree (c : Race) (t : Micros) (s : RaceState) :
    (scanStep c t s).tree = s.tree ∧ (scanStep c t s).mover = s.mover := by
  unfold scanStep
  split
  · split
    · split <;> exact ⟨rfl, rfl⟩
    · exact ⟨rfl, rfl⟩
  · split <;> exact ⟨rfl, rfl⟩
  · exact ⟨rfl, rfl⟩
  · split <;> exact ⟨rfl, rfl⟩
  · split <;> exact ⟨rfl, rfl⟩
  · exact ⟨rfl, rfl⟩
  · exact ⟨rfl, rfl⟩

/-- What one step of the worker makes of the worker and of the `files` table. -/
inductive Scanned (c : Race) (t : Micros) (s : RaceState) : WorkerAt → Table fileKeying → Prop
  | waits (w : WorkerAt) (files : Table fileKeying) : files.rows = s.db.files.rows →
      (s.worker = .finished → w = .finished) →
      (∀ id, w = .touching id → ∃ q ∈ s.db.files.rows,
        (q.rootId, q.relPathHash) = c.offer.key c.cfg ∧ q.id = id) → Scanned c t s w files
  | touched (id : ℕ) : s.worker = .touching id →
      Scanned c t s .finished (s.db.files.modify (fun q => q.id = id) (touchRow t))
  | stored (st : FileStat) (header : RawHeader) (r : StoreState) :
      s.worker = .storing st header →
      storeFile c.cfg.store t (c.offer.info c.cfg st) header ⟨s.db, s.caches⟩ = (.ok (), r) →
      Scanned c t s .finished (s.db.files.upsert (c.offer.key c.cfg)
        ((c.offer.info c.cfg st).newRow t) ((c.offer.info c.cfg st).storedRow t))
  | failed (st : FileStat) (what : Str) : s.worker = .failing st what →
      Scanned c t s .finished (s.db.files.upsert (c.offer.key c.cfg)
        (newErrorRow c.cfg c.offer st what t) (errorRow what t))

theorem scanStep_cases (c : Race) (t : Micros) (s : RaceState) :
    Scanned c t s (scanStep c t s).worker (scanStep c t s).db.files := by
  unfold scanStep
  cases hw : s.worker with
  | popped =>
    dsimp only
    split
    · split
      · exact .waits _ _ rfl (fun _ => rfl) (by simp)
      · exact .waits _ _ rfl (by simp [hw]) (by simp)
    · exact .waits _ _ rfl (fun _ => rfl) (by simp)
  | statted st =>
    dsimp only
    cases hp : plan c.cfg s.db c.offer st with
    | touch o id =>
      refine .waits _ _ rfl (by simp [hw]) fun id' hid => ?_
      cases hid
      unfold plan at hp
      split at hp
      · next r hr =>
        split at hp
        · cases hp
          exact ⟨r, Table.get_mem hr, Table.get_key hr, rfl⟩
        · cases hp
      · cases hp
    | idle => exact .waits _ _ rfl (by simp [hw]) (by simp)
    | popped o => exact .waits _ _ rfl (by simp [hw]) (by simp)
    | store o st known => exact .waits _ _ rfl (by simp [hw]) (by simp)
    | failed o st what => exact .waits _ _ rfl (by simp [hw]) (by simp)
  | touching id => exact .touched id hw
  | reading st =>
    dsimp only
    split <;> exact .waits _ _ rfl (by simp [hw]) (by simp)
  | storing st header =>
    dsimp only
    rcases hs : storeFile c.cfg.store t (c.offer.info c.cfg st) header ⟨s.db, s.caches⟩ with
      ⟨e | _, r⟩
    · obtain ⟨u, hu⟩ := storeFile_error hs
      refine .waits _ _ ?_ (by simp [hw]) (by simp)
      show r.db.files.rows = s.db.files.rows
      rw [hu]
      rfl
    · show Scanned c t s .finished r.db.files
      rw [(storeFile_ok hs).1]
      exact .stored st header r hw hs
  | failing st what =>
    dsimp only
    split
    · exact .failed st what hw
    · exact .waits _ _ rfl (fun _ => rfl) (by simp)
  | finished => exact .waits _ _ rfl (fun _ => hw) (by simp [hw])

theorem Holds.of_rows {files' : Table fileKeying} (h : Holds c files)
    (hrows : files'.rows = files.rows) : Holds c files' := by
  obtain ⟨q, hq, hid, hat⟩ := h
  rw [Table.get_eq_some_iff, ← hrows] at hq
  exact ⟨q, Table.get_eq_some_iff.mpr hq, hid, hat⟩

theorem Scanned.holds {t : Micros} {w : WorkerAt} (hs : Scanned c t s w files)
    (h : Holds c s.db.files) : Holds c files := by
  cases hs with
  | waits _ _ hrows _ _ => exact h.of_rows hrows
  | touched id _ => exact h.modify _ _ fun _ => rfl
  | stored st header r _ _ => exact h.upsert _ _ fun _ => Or.inr rfl
  | failed st what _ => exact h.upsert _ _ fun _ => Or.inl rfl

theorem Tracked.scan (h : Tracked c s) (t : Micros) : Tracked c (scanStep c t s) := by
  have hs := scanStep_cases c t s
  refine ⟨?_, ?_, fun hlost => hs.holds (h.holds fun hf => hlost ?_)⟩
  · intro hw q hq hk
    generalize (scanStep c t s).worker = w at hs hw
    generalize (scanStep c t s).db.files = files at hs hq
    cases hs with
    | waits _ _ hrows hdone _ =>
      rw [hrows] at hq
      exact h.only (fun he => hw (hdone he)) q hq hk
    | touched _ _ => exact absurd rfl hw
    | stored _ _ _ _ _ => exact absurd rfl hw
    | failed _ _ _ => exact absurd rfl hw
  · intro id hid
    generalize (scanStep c t s).worker = w at hs hid
    generalize (scanStep c t s).db.files = files at hs
    cases hs with
    | waits _ _ _ hdone hsel =>
      obtain ⟨q, hq, hk, hqi⟩ := hsel id hid
      have hrun : s.worker ≠ .finished := fun he => by
        rw [hdone he] at hid
        cases hid
      exact hqi.symm.trans (h.only hrun q hq hk)
    | touched _ _ => cases hid
    | stored _ _ _ _ _ => cases hid
    | failed _ _ _ => cases hid
  · rw [(scanStep_tree c t s).2]
    exact hf

theorem Tracked.act (h : Tracked c s) (x : SysFaults) (t : Micros) :
    Tracked c (actStep c x t s) := by
  unfold actStep
  cases hm : s.mover with
  | before =>
    have hhold : Holds c s.db.files := h.holds fun hf => by
      rw [hm] at hf
      cases hf
    dsimp only
    split
    · exact ⟨h.only, h.touches, fun _ => hhold⟩
    · exact ⟨h.only, h.touches, fun _ => hhold⟩
  | renamed =>
    have hhold : Holds c s.db.files := h.holds fun hf => by
      rw [hm] at hf
      cases hf
    dsimp only
    refine ⟨fun hw q hq hk => ?_, h.touches, fun hout => ?_⟩
    · rcases writeBackDb_cases c.roots t c.fileId c.dst s.db with ⟨_, hfiles⟩ | ⟨r, _, hsame | hrows⟩
      · dsimp only at hq
        rw [hfiles] at hq
        obtain ⟨q', hq', rfl⟩ := List.mem_map.mp hq
        split at hk
        · next hi =>
          rw [if_pos hi]
          exact of_decide_eq_true hi
        · next hi =>
          rw [if_neg hi]
          exact h.only hw q' hq' hk
      · dsimp only at hq
        rw [hsame] at hq
        exact h.only hw q hq hk
      · dsimp only at hq
        rw [hrows] at hq
        obtain ⟨q', hq', rfl⟩ := List.mem_map.mp hq
        split at hk
        · next hi =>
          rw [if_pos hi]
          exact hi
        · next hi =>
          rw [if_neg hi]
          exact h.only hw q' hq' hk
    · rcases writeBackDb_cases c.roots t c.fileId c.dst s.db with ⟨_, hfiles⟩ | ⟨r, hr, _⟩
      · dsimp only
        rw [hfiles]
        exact hhold.modify _ _ fun _ => rfl
      · rw [hout rfl] at hr
        cases hr
  | finished => exact h

theorem Tracked.step (h : Tracked c s) (e : RaceStep) : Tracked c (raceStep c s e) := by
  cases e with
  | scan t => exact h.scan t
  | act x t => exact h.act x t

/-! ### No ghosts, except while the row waits for its write-back -/

/-- The file's row may be a ghost between the rename and its write-back, and no other row is one.
Once the operation has ended and the worker has not, the file's row is at a path that is there, or
is the missing row of a file that left every root. -/
structure RaceInv (c : Race) (s : RaceState) : Prop extends Tracked c s where
  real : ∀ q ∈ s.db.files.rows, q.status = .ok → ∀ p, RowAt c.roots q p →
    s.tree (c.locate p) ≠ none ∨ (s.mover = .renamed ∧ q.id = c.fileId)
  before : s.mover = .before → s.tree (c.locate c.src) ≠ none
  renamed : s.mover = .renamed → s.tree (c.locate c.dst) ≠ none
  settled : s.mover = .finished → s.worker ≠ .finished → ∀ q ∈ s.db.files.rows, q.id = c.fileId →
    ∀ p, RowAt c.roots q p →
      s.tree (c.locate p) ≠ none ∨ (rootFor c.roots c.dst = none ∧ c.locate p = c.locate c.src)

theorem Begins.inv (h : Begins c s) : RaceInv c s where
  toTracked := h.tracked
  real q hq hok p hp := Or.inl (h.real q hq hok p hp)
  before _ := h.file
  renamed hm := by
    rw [h.mover] at hm
    cases hm
  settled hm := by
    rw [h.mover] at hm
    cases hm

theorem Tracked.holds_of_renamed (h : Tracked c s) (hm : s.mover = .renamed) :
    Holds c s.db.files :=
  h.holds fun hf => by
    rw [hm] at hf
    cases hf

theorem Tracked.holds_of_before (h : Tracked c s) (hm : s.mover = .before) :
    Holds c s.db.files :=
  h.holds fun hf => by
    rw [hm] at hf
    cases hf

/-- A touch that is not late makes no ghost. -/
theorem RaceInv.touched (h : RaceInv c s) {t : Micros} {id : ℕ} (hw : s.worker = .touching id)
    (hlate : ¬ Late c s (.scan t)) {q : FileRow} (hq : q ∈ s.db.files.rows)
    (hid : q.id = c.fileId) {p : Str} (hp : RowAt c.roots q p) :
    s.tree (c.locate p) ≠ none ∨ (s.mover = .renamed ∧ q.id = c.fileId) := by
  cases hm : s.mover with
  | before =>
    have hat := (h.holds_of_before hm).atSrc hq hid p hp
    rw [hat]
    exact Or.inl (h.before hm)
  | renamed => exact Or.inr ⟨rfl, hid⟩
  | finished =>
    have hrun : s.worker ≠ .finished := by simp [hw]
    rcases h.settled hm hrun q hq hid p hp with hthere | ⟨hout, hat⟩
    · exact Or.inl hthere
    · refine Or.inl fun hgone => hlate ⟨hm, ?_, ?_⟩
      · rwa [← hat]
      · rw [hw]
        exact hout

/-- Nor does a store that is not late. -/
theorem RaceInv.stored (h : RaceInv c s) {t : Micros} {st : FileStat} {header : RawHeader}
    {r : StoreState} (hw : s.worker = .storing st header)
    (hs : storeFile c.cfg.store t (c.offer.info c.cfg st) header ⟨s.db, s.caches⟩ = (.ok (), r))
    (hlate : ¬ Late c s (.scan t)) {q : FileRow}
    (hq : q = (s.db.files.get (c.offer.key c.cfg)).elim
      (((c.offer.info c.cfg st).newRow t).make s.db.files.next)
      ((c.offer.info c.cfg st).storedRow t).apply) {p : Str} (hp : RowAt c.roots q p) :
    s.tree (c.locate p) ≠ none ∨ (s.mover = .renamed ∧ q.id = c.fileId) := by
  have hrel : q.relPath = c.offer.relPath ∧ q.rootId = c.cfg.rootId := by
    rw [hq]
    cases hget : s.db.files.get (c.offer.key c.cfg) with
    | none => exact ⟨rfl, rfl⟩
    | some a =>
      have hroot : a.rootId = c.cfg.rootId := root_of_key hget
      exact ⟨rfl, hroot⟩
  have hat : c.locate p = c.locate c.src := atSrc_of_stored hrel.2 hrel.1 p hp
  rw [hat]
  cases hm : s.mover with
  | before => exact Or.inl (h.before hm)
  | renamed =>
    obtain ⟨a, hget, hid, _⟩ := h.holds_of_renamed hm
    rw [hget] at hq
    exact Or.inr ⟨rfl, by rw [hq]; exact hid⟩
  | finished =>
    refine Or.inl fun hgone => hlate ⟨hm, hgone, ?_⟩
    rw [hw]
    exact ⟨r, hs⟩

theorem RaceInv.scan (h : RaceInv c s) {t : Micros} (hlate : ¬ Late c s (.scan t)) :
    RaceInv c (scanStep c t s) := by
  obtain ⟨htree, hmover⟩ := scanStep_tree c t s
  have hs := scanStep_cases c t s
  refine ⟨h.toTracked.scan t, ?_, ?_, ?_, ?_⟩
  · rw [htree, hmover]
    generalize (scanStep c t s).worker = w at hs
    generalize (scanStep c t s).db.files = files at hs
    intro q hq hok p hp
    cases hs with
    | waits _ _ hrows _ _ =>
      rw [hrows] at hq
      exact h.real q hq hok p hp
    | touched id hw =>
      obtain ⟨a, ha, rfl⟩ := List.mem_map.mp hq
      split at hp
      · next hi =>
        rw [if_pos hi]
        have hid : a.id = c.fileId := (of_decide_eq_true hi).trans (h.touches id hw)
        exact h.touched hw hlate ha hid hp
      · next hi =>
        rw [if_neg hi] at hok ⊢
        exact h.real a ha hok p hp
    | stored st header r hw hstore =>
      rcases Table.mem_upsert_cases hq with ⟨hold, _⟩ | hnew
      · exact h.real q hold hok p hp
      · exact h.stored hw hstore hlate hnew hp
    | failed st what _ =>
      rcases Table.mem_upsert_cases hq with ⟨hold, _⟩ | hnew
      · exact h.real q hold hok p hp
      · rw [hnew] at hok
        cases hget : s.db.files.get (c.offer.key c.cfg) <;> rw [hget] at hok <;> cases hok
  · rw [htree, hmover]
    exact h.before
  · rw [htree, hmover]
    exact h.renamed
  · rw [htree, hmover]
    generalize (scanStep c t s).worker = w at hs
    generalize (scanStep c t s).db.files = files at hs
    intro hm hrun
    cases hs with
    | waits _ _ hrows hdone _ =>
      rw [hrows]
      exact h.settled hm fun he => hrun (hdone he)
    | touched _ _ => exact absurd rfl hrun
    | stored _ _ _ _ _ => exact absurd rfl hrun
    | failed _ _ _ => exact absurd rfl hrun

/-- The system calls leave every row real but that of the file. -/
theorem RaceInv.relocated (h : RaceInv c s) (hm : s.mover = .before) (x : SysFaults) (t : Micros)
    (hplain : Plain c s (.act x t)) : RaceInv c (actStep c x t s) := by
  have hreal : ∀ q ∈ s.db.files.rows, q.status = .ok → ∀ p, RowAt c.roots q p →
      s.tree (c.locate p) ≠ none := by
    intro q hq hok p hp
    refine (h.real q hq hok p hp).resolve_right fun hr => ?_
    rw [hm] at hr
    cases hr.1
  have halone : ∀ q ∈ s.db.files.rows, q.status = .ok → q.id ≠ c.fileId →
      ∀ p, RowAt c.roots q p → c.locate p ≠ c.locate c.src := by
    unfold Plain at hplain
    rw [hm] at hplain
    exact hplain
  have htracked := h.toTracked.act x t
  unfold actStep at htracked ⊢
  rw [hm] at htracked ⊢
  dsimp only at htracked ⊢
  rcases hrel : relocate c.locate x s.tree c.src c.dst with ⟨msg | _, u⟩
  · rw [hrel] at htracked
    refine ⟨htracked, fun q hq hok p hp => Or.inl ?_, by simp, by simp, ?_⟩
    · exact relocate_error hrel (hreal q hq hok p hp)
    · intro _ _ q hq hid p hp
      have hat := (h.holds_of_before hm).atSrc hq hid p hp
      refine Or.inl ?_
      rw [hat]
      exact relocate_error hrel (h.before hm)
  · rw [hrel] at htracked
    obtain ⟨hdst, hothers⟩ := relocate_ok hrel
    refine ⟨htracked, fun q hq hok p hp => ?_, by simp, fun _ => hdst, by simp⟩
    by_cases hid : q.id = c.fileId
    · exact Or.inr ⟨rfl, hid⟩
    · exact Or.inl (hothers _ (halone q hq hok hid p hp) (hreal q hq hok p hp))

/-- A row anchored at the destination is where the file is. -/
theorem RaceInv.anchoredInv (h : RaceInv c s) (hm : s.mover = .renamed) (t : Micros) {r : ℕ × Str}
    (hr : rootFor c.roots c.dst = some r) (hown : ∀ r ∈ c.roots, r.2 ≠ c.dst)
    (hrows : (writeBackDb c.roots t c.fileId c.dst s.db).files.rows = s.db.files.rows.map fun q =>
      if q.id = c.fileId then anchored t r.1 (relUnder r.2 c.dst) q else q)
    (htracked : Tracked c { s with
      db := writeBackDb c.roots t c.fileId c.dst s.db, mover := .finished }) :
    RaceInv c { s with db := writeBackDb c.roots t c.fileId c.dst s.db, mover := .finished } := by
  obtain ⟨hmem, hunder⟩ := rootFor_some hr
  have hpath : c.dst = r.2 ++ '/' :: relUnder r.2 c.dst :=
    (underRoot_cases hunder).resolve_left fun he => hown r hmem he.symm
  have hthere : ∀ q p, RowAt c.roots (anchored t r.1 (relUnder r.2 c.dst) q) p →
      s.tree (c.locate p) ≠ none := by
    intro q p hp
    have hat : RowAt c.roots (anchored t r.1 (relUnder r.2 c.dst) q) c.dst := ⟨r, hmem, rfl, hpath⟩
    rw [rowAt_unique hp hat]
    exact h.renamed hm
  refine ⟨htracked, ?_, by simp, by simp, ?_⟩
  · dsimp only
    rw [hrows]
    intro q hq hok p hp
    obtain ⟨a, ha, rfl⟩ := List.mem_map.mp hq
    split at hp
    · exact Or.inl (hthere a p hp)
    · next hi =>
      rw [if_neg hi] at hok
      exact Or.inl ((h.real a ha hok p hp).resolve_right fun hghost => hi hghost.2)
  · dsimp only
    rw [hrows]
    intro _ _ q hq hid p hp
    obtain ⟨a, ha, rfl⟩ := List.mem_map.mp hq
    split at hp
    · exact Or.inl (hthere a p hp)
    · next hi =>
      rw [if_neg hi] at hid
      exact absurd hid hi

/-- The write-back puts the file's row where the file is, or marks it missing. -/
theorem RaceInv.writtenBack (h : RaceInv c s) (hm : s.mover = .renamed) (x : SysFaults) (t : Micros)
    (hplain : Plain c s (.act x t)) : RaceInv c (actStep c x t s) := by
  have hhold := h.holds_of_renamed hm
  obtain ⟨hfree, hown⟩ : PathFree c.roots s.db.files c.fileId c.dst ∧ ∀ r ∈ c.roots, r.2 ≠ c.dst := by
    unfold Plain at hplain
    rw [hm] at hplain
    exact hplain
  have hothers : ∀ q ∈ s.db.files.rows, q.id ≠ c.fileId → q.status = .ok → ∀ p,
      RowAt c.roots q p → s.tree (c.locate p) ≠ none :=
    fun q hq hid hok p hp => (h.real q hq hok p hp).resolve_right fun hr => hid hr.2
  have htracked := h.toTracked.act x t
  unfold actStep at htracked ⊢
  rw [hm] at htracked ⊢
  have hrows := writeBackDb_cases c.roots t c.fileId c.dst s.db
  rcases hrows with ⟨hout, hfiles⟩ | ⟨r, hr, hsame | hrows⟩
  · refine ⟨htracked, ?_, by simp, by simp, ?_⟩
    · dsimp only
      rw [hfiles]
      intro q hq hok p hp
      obtain ⟨a, ha, rfl⟩ := List.mem_map.mp hq
      split at hok
      · cases hok
      · next hi =>
        rw [if_neg hi] at hp
        exact Or.inl (hothers a ha (by simpa using hi) hok p hp)
    · dsimp only
      rw [hfiles]
      intro _ _ q hq hid p hp
      exact Or.inr ⟨hout, (hhold.modify _ missingRow fun _ => rfl).atSrc hq hid p hp⟩
  · -- the path moved to is free, so the row is not refused
    have hsome := (writtenFiles_isSome_iff t hhold.mem_ids).mpr hfree
    obtain ⟨U, hU⟩ := Option.isSome_iff_exists.mp hsome
    have hfiles := writeBackDb_files c.roots t c.fileId c.dst s.db
    rw [hU, Option.getD_some, hsame] at hfiles
    unfold writtenFiles at hU
    rw [hr] at hU
    have hmap := (Table.rekey_eq_some_iff.mp hU).1
    rw [← hfiles] at hmap
    exact h.anchoredInv hm t hr hown (hsame ▸ hmap) htracked
  · exact h.anchoredInv hm t hr hown hrows htracked

theorem RaceInv.step (h : RaceInv c s) {e : RaceStep} (hlate : ¬ Late c s e)
    (hplain : Plain c s e) : RaceInv c (raceStep c s e) := by
  cases e with
  | scan t => exact h.scan hlate
  | act x t =>
    cases hm : s.mover with
    | before => exact h.relocated hm x t hplain
    | renamed => exact h.writtenBack hm x t hplain
    | finished =>
      show RaceInv c (actStep c x t s)
      unfold actStep
      rw [hm]
      exact h

/-! ### The pass afterwards -/

/-- A reconciliation makes no ghost: what it moves takes a row's path with that row's status. -/
theorem reconcile_noGhost {tree : Files} {db : IndexDb} (h : NoGhost c tree db.files) (ss : Micros)
    (prior : ℕ) (order : RowOrder) (moment : ℕ → Micros) :
    NoGhost c tree (reconcileRoot c.cfg.rootId ss prior order moment db).db.files := by
  cases hguard : guardTrips prior (seenNow db c.cfg.rootId ss) with
  | true =>
    rw [reconcile_guarded order moment hguard]
    exact h
  | false =>
    intro q hq hok p hp
    obtain ⟨r, hr, -, hbecame⟩ := ((reconcile_spec order moment hguard).rows q).mp hq
    cases hbecame with
    | kept _ => exact h q hr hok p hp
    | moved a hmoved =>
      have hv := (mem_vanishedRows.mp hmoved.vanished).2.1
      have ha := mem_appearedRows.mp hmoved.appeared
      have hroot : r.rootId = a.rootId := hv.trans ha.2.1.symm
      have hsame : RowAt c.roots (anchoredRow (moment r.id) a r) p ↔ RowAt c.roots a p :=
        rowAt_congr a (anchoredRow (moment r.id) a r) hroot rfl
      exact h a ha.1 hok p (hsame.mp hp)
    | missing _ _ => cases hok

/-- A row of the sweep's root that is a ghost and was seen by the sweep. -/
structure Ghost (c : Race) (ss : Micros) (tree : Files) (q : FileRow) : Prop where
  root : q.rootId = c.cfg.rootId
  ok : q.status = .ok
  seen : seenSince ss q = true
  gone : ∀ p, RowAt c.roots q p → tree (c.locate p) = none

/-- A ghost the sweep saw outlives the reconciliation, or gives its place to the row it is taken
for. -/
theorem reconcile_ghost {ss : Micros} {tree : Files} {db : IndexDb} {q : FileRow}
    (h : Ghost c ss tree q) (hq : q ∈ db.files.rows) (prior : ℕ) (order : RowOrder)
    (moment : ℕ → Micros) :
    ¬ NoGhost c tree (reconcileRoot c.cfg.rootId ss prior order moment db).db.files := by
  intro hno
  have hat := rowAt_of_root (c := c) h.root
  cases hguard : guardTrips prior (seenNow db c.cfg.rootId ss) with
  | true =>
    rw [reconcile_guarded order moment hguard] at hno
    exact hno q hq h.ok _ hat (h.gone _ hat)
  | false =>
    have hspec := reconcile_spec order moment hguard
    have hkept : q ∉ vanishedRows db c.cfg.rootId ss := fun hv => by
      have hunseen := (mem_vanishedRows.mp hv).2.2.2
      rw [h.seen] at hunseen
      cases hunseen
    by_cases hmoved : ∃ v, Moved db c.cfg.rootId ss v q
    · obtain ⟨v, hv⟩ := hmoved
      have hvrow := mem_vanishedRows.mp hv.vanished
      -- the row that vanished stays, since it could only have been taken for itself
      have hstays : ∀ w, ¬ Moved db c.cfg.rootId ss w v := by
        intro w hw
        have hself : v = w := hw.eq_of_vanished hv.vanished
        have hqv : v = q := (hself ▸ hw : Moved db c.cfg.rootId ss v v).target_unique hv
        exact hkept (hqv ▸ hv.vanished)
      have hrow := (hspec.rows (anchoredRow (moment v.id) q v)).mpr
        ⟨v, hvrow.1, hstays, .moved q hv⟩
      have hroot : v.rootId = q.rootId := hvrow.2.1.trans h.root.symm
      have hsame : RowAt c.roots (anchoredRow (moment v.id) q v) (c.rootPath ++ '/' :: q.relPath) ↔
          RowAt c.roots q (c.rootPath ++ '/' :: q.relPath) :=
        rowAt_congr q (anchoredRow (moment v.id) q v) hroot rfl
      exact hno _ hrow h.ok _ (hsame.mpr hat) (h.gone _ hat)
    · have hrow := (hspec.rows q).mpr ⟨q, hq, fun v hv => hmoved ⟨v, hv⟩, .kept hkept⟩
      exact hno q hrow h.ok _ hat (h.gone _ hat)

/-- Both sides have ended and the sweep saw a ghost. -/
def Haunted (c : Race) (ss : Micros) (s : RaceState) : Prop :=
  s.Done ∧ ∃ q ∈ s.db.files.rows, Ghost c ss s.tree q

theorem Haunted.step {ss : Micros} (h : Haunted c ss s) (e : RaceStep) :
    Haunted c ss (raceStep c s e) := by
  have hsame : raceStep c s e = s := by
    cases e with
    | scan t =>
      show scanStep c t s = s
      unfold scanStep
      rw [h.1.1]
    | act x t =>
      show actStep c x t s = s
      unfold actStep
      rw [h.1.2]
  rw [hsame]
  exact h

/-- A late step leaves a ghost the sweep saw. -/
theorem Tracked.haunted {ss t : Micros} (h : Tracked c s) (ht : ss ≤ t)
    (hlate : Late c s (.scan t)) : Haunted c ss (scanStep c t s) := by
  obtain ⟨hm, hgone, hw⟩ := hlate
  have hat : ∀ {q : FileRow}, AtSrc c q → ∀ p, RowAt c.roots q p → s.tree (c.locate p) = none :=
    fun hsrc p hp => (hsrc p hp).symm ▸ hgone
  have hseen : ∀ {q : FileRow}, q.lastSeenUtc = some t → seenSince ss q = true := by
    intro q hq
    simp [seenSince, hq, ht]
  cases hworker : s.worker with
  | touching id =>
    rw [hworker] at hw
    have hhold := h.holds fun _ => hw
    obtain ⟨q, hq, hid, hsrc⟩ := hhold
    unfold scanStep
    rw [hworker]
    have hroot : q.rootId = c.cfg.rootId := root_of_key hq
    refine ⟨⟨rfl, hm⟩, (touchRow t).apply q, ?_, hroot, rfl, hseen rfl, hat hsrc⟩
    refine List.mem_map.mpr ⟨q, Table.get_mem hq, if_pos ?_⟩
    simpa using hid.trans (h.touches id hworker).symm
  | storing st header =>
    rw [hworker] at hw
    obtain ⟨r, hr⟩ := hw
    unfold scanStep
    rw [hworker]
    dsimp only
    rw [hr]
    have hget : (s.db.files.upsert (c.offer.key c.cfg) ((c.offer.info c.cfg st).newRow t)
        ((c.offer.info c.cfg st).storedRow t)).get (c.offer.key c.cfg) = _ := Table.get_upsert_self
    refine ⟨⟨rfl, hm⟩, _, (storeFile_ok hr).1 ▸ Table.get_mem hget, root_of_key hget, ?_, ?_, ?_⟩
    · cases s.db.files.get (c.offer.key c.cfg) <;> rfl
    · exact hseen (by cases s.db.files.get (c.offer.key c.cfg) <;> rfl)
    · refine hat (atSrc_of_stored (root_of_key hget) ?_)
      cases s.db.files.get (c.offer.key c.cfg) <;> rfl
  | popped => rw [hworker] at hw; exact hw.elim
  | statted st => rw [hworker] at hw; exact hw.elim
  | reading st => rw [hworker] at hw; exact hw.elim
  | failing st what => rw [hworker] at hw; exact hw.elim
  | finished => rw [hworker] at hw; exact hw.elim

/-- **A scan and a file operation, exactly.**  From a state without ghosts, take any interleaving of
a worker's steps on a file with those of a move or trash of it that ends with both.  If no step is
late and the operation's own steps are plain, the sweep's reconciliation leaves no ghost; and if it
leaves none, no step was late. -/
theorem race_settles (c : Race) (s : RaceState) (h : Begins c s) (steps : List RaceStep)
    (hdone : (steps.foldl (raceStep c) s).Done) (ss : Micros)
    (hafter : ∀ t, .scan t ∈ steps → ss ≤ t) (prior : ℕ) (order : RowOrder) (moment : ℕ → Micros) :
    (Run.Each (raceStep c) (fun s e => ¬ Late c s e ∧ Plain c s e) s steps →
      NoGhost c (steps.foldl (raceStep c) s).tree (reconcileRoot c.cfg.rootId ss prior order moment
        (steps.foldl (raceStep c) s).db).db.files) ∧
    (NoGhost c (steps.foldl (raceStep c) s).tree (reconcileRoot c.cfg.rootId ss prior order moment
        (steps.foldl (raceStep c) s).db).db.files →
      Run.Each (raceStep c) (fun s e => ¬ Late c s e) s steps) := by
  constructor
  · intro hsteps
    have hall : Run.Always (raceStep c) (RaceInv c) s steps :=
      Run.always_of_each (fun _ _ hs he => hs.step he.1 he.2) h.inv hsteps
    have hlast := hall.last
    refine reconcile_noGhost (fun q hq hok p hp => ?_) ss prior order moment
    refine (hlast.real q hq hok p hp).resolve_right fun hghost => ?_
    rw [hdone.2] at hghost
    cases hghost.1
  · intro hno
    refine Run.each_of_not_last (I := Tracked c) (F := Haunted c ss) (fun _ e hs => hs.step e)
      (fun _ e hs => hs.step e) (fun u e he hu hlate => ?_) h.tracked ?_
    · cases e with
      | scan t => exact hu.haunted (hafter t he) (not_not.mp hlate)
      | act x t => exact absurd (fun hl : Late c u (.act x t) => hl) hlate
    · intro hhaunted
      obtain ⟨_, q, hq, hghost⟩ := hhaunted
      exact reconcile_ghost hghost hq prior order moment hno

end Proof

/-! ### A touch after a trash -/

section Touched

attribute [local instance] plainHost

/-- The file `/r/x.fits` of root 1, indexed as it is, is moved to the trash. -/
def trashed : Race where
  cfg := foldingSweep
  rootPath := "/r".toList
  offer := ⟨"x.fits".toList, "x.fits".toList, ".fits".toList, some ⟨1, 1, 0, 1⟩, .error []⟩
  clock := 100
  cannotOpen := []
  roots := [(1, "/r".toList)]
  locate := id
  fileId := 1
  src := "/r/x.fits".toList
  dst := "/t/x.fits".toList
  rootIds_nodup := List.nodup_singleton 1
  root_mem := List.mem_singleton_self (1, "/r".toList)
  same_file := rfl

/-- The index holds the file, which is on the disk. -/
def trashedStart : RaceState where
  tree := put (fun _ => none) "/r/x.fits".toList (.file [])
  db := (IndexDb.blank {}).upsertFile (trashed.offer.key trashed.cfg)
    ((trashed.offer.info trashed.cfg ⟨1, 1, 0, 1⟩).newRow 0)
    ((trashed.offer.info trashed.cfg ⟨1, 1, 0, 1⟩).storedRow 0)
  caches := {}
  worker := .popped
  mover := .before

theorem noGhost_iff {c : Race} {tree : Files} {files : Table fileKeying} :
    NoGhost c tree files ↔ ∀ q ∈ files.rows, q.status = .ok → ∀ r ∈ c.roots, r.1 = q.rootId →
      tree (c.locate (r.2 ++ '/' :: q.relPath)) ≠ none := by
  constructor
  · exact fun h q hq hok r hr hid => h q hq hok _ ⟨r, hr, hid, rfl⟩
  · intro h q hq hok p hp
    obtain ⟨r, hr, hid, rfl⟩ := hp
    exact h q hq hok r hr hid

instance (c : Race) (tree : Files) (files : Table fileKeying) : Decidable (NoGhost c tree files) :=
  decidable_of_iff _ noGhost_iff.symm

theorem trashed_begins : Begins trashed trashedStart where
  worker := rfl
  mover := rfl
  file := by decide
  row := ⟨_, rfl, rfl, (1, "/r".toList), by decide, rfl, rfl⟩
  real := by decide

/-- The worker ends before the file is renamed. -/
theorem race_settles_in_order :
    NoGhost trashed
      ([.scan 10, .scan 10, .scan 11, .act {} 12, .act {} 13].foldl (raceStep trashed)
        trashedStart).tree
      (reconcileRoot 1 10 1 lastFirst (fun _ => 20)
        ([.scan 10, .scan 10, .scan 11, .act {} 12, .act {} 13].foldl (raceStep trashed)
          trashedStart).db).db.files := by
  refine (race_settles trashed trashedStart trashed_begins
    [.scan 10, .scan 10, .scan 11, .act {} 12, .act {} 13] ⟨rfl, rfl⟩ 10 (by simp) 1 lastFirst
    fun _ => 20).1 ?_
  have hrunning : ∀ s : RaceState, s.mover = .before → ∀ t, ¬ Late trashed s (.scan t) := by
    intro s hm t hlate
    have hfinished := hlate.1
    rw [hm] at hfinished
    cases hfinished
  refine ⟨⟨hrunning _ rfl _, trivial⟩, ⟨hrunning _ rfl _, trivial⟩, ⟨hrunning _ rfl _, trivial⟩,
    ⟨fun h => h, ?_⟩, ⟨fun h => h, ?_⟩, trivial⟩
  · intro q hq _ hid
    rw [List.mem_singleton.mp hq] at hid
    exact absurd rfl hid
  · exact ⟨by decide, by decide⟩

/-- The worker takes the file for unchanged, the file goes to the trash and its row is marked
missing, and then the worker's touch makes the row `ok` again. -/
theorem touch_revives_trashed :
    Begins trashed trashedStart ∧
      ([.scan 10, .scan 10, .act {} 11, .act {} 12, .scan 13].foldl (raceStep trashed)
        trashedStart).Done ∧
      ¬ NoGhost trashed
        ([.scan 10, .scan 10, .act {} 11, .act {} 12, .scan 13].foldl (raceStep trashed)
          trashedStart).tree
        (reconcileRoot 1 10 1 lastFirst (fun _ => 20)
          ([.scan 10, .scan 10, .act {} 11, .act {} 12, .scan 13].foldl (raceStep trashed)
            trashedStart).db).db.files :=
  ⟨trashed_begins, ⟨rfl, rfl⟩, by decide⟩

end Touched

end StarBase.Scan
