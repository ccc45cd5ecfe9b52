import StarBase.Scan.ScanRoot
import StarBase.Scan.SweepExact

/-!
# A complete scan of a settled disk

The setting most results about a scan share: every file is settled, and the digest keeps the paths
involved apart, as the file system of the root compares them.

* `DiskScan.effect` — **PROVED**: every indexable file ends in a write, with its exact effect;
* `DiskScan.row` — **PROVED**: after the sweep there is a row at its path, stamped and live;
* `DiskScan.unseen` — **PROVED**: a row at any other path is as it was.
-/

namespace StarBase.Scan

open Relational Extract

section Setting

variable [Host] {W : Type} [DecidableEq W]

/-- The rows of the root carry the digest of their path. -/
def HashesPaths (cfg : ScanConfig) (db : IndexDb) : Prop :=
  ∀ r ∈ db.files.rows, r.rootId = cfg.rootId → r.relPathHash = Host.md5 (cfg.fold r.relPath)

/-- The paths of the root in the index and on disk, folded. -/
def KnownPath (cfg : ScanConfig) (db : IndexDb) (disk : List DiskFile) (p : Str) : Prop :=
  (∃ r ∈ db.files.rows, r.rootId = cfg.rootId ∧ cfg.fold r.relPath = p) ∨
    ∃ f ∈ disk, cfg.fold f.relPath = p

/-- An indexable file of the disk that is not ignored. -/
def OnDisk (ignore : List Str) (disk : List DiskFile) (f : DiskFile) : Prop :=
  f ∈ disk ∧ walked ignore f = true

/-- The path names such a file. -/
def PathOnDisk (cfg : ScanConfig) (ignore : List Str) (disk : List DiskFile) (p : Str) : Prop :=
  ∃ f, OnDisk ignore disk f ∧ cfg.fold f.relPath = cfg.fold p

/-- A complete scan of a root whose files are settled, whoever takes them. -/
structure SettledScan (cfg : ScanConfig) (ignore : List Str) (disk : List DiskFile)
    (run : ScanRun W) (db : IndexDb) : Prop where
  ends : RunsToEnd cfg run (walk ignore disk) db
  paths : (disk.map fun f => cfg.fold f.relPath).Nodup
  apart : ∀ p q, KnownPath cfg db disk p → KnownPath cfg db disk q →
    Host.md5 p = Host.md5 q → p = q
  settled : ∀ f, OnDisk ignore disk f → ∀ w,
    unsettled (cfg.sweepConfig db) (run.clock w) f.stat = false

/-- Such a scan of an index whose rows carry the digests of their paths. -/
structure DiskScan (cfg : ScanConfig) (ignore : List Str) (disk : List DiskFile) (run : ScanRun W)
    (db : IndexDb) : Prop extends SettledScan cfg ignore disk run db where
  hashed : HashesPaths cfg db

/-- The key of a path of the root. -/
def pathKey (cfg : ScanConfig) (p : Str) : ℕ × Str := (cfg.rootId, Host.md5 (cfg.fold p))

variable {cfg : ScanConfig} {ignore : List Str} {disk : List DiskFile} {run : ScanRun W}
  {db : IndexDb}

theorem offer_key (f : DiskFile) : f.offer.key (cfg.sweepConfig db) = pathKey cfg f.relPath := rfl

namespace DiskScan

omit [Host] in
theorem mem_walk {o : Offer} :
    o ∈ walk ignore disk ↔ ∃ f, OnDisk ignore disk f ∧ f.offer = o := by
  unfold walk OnDisk
  rw [List.mem_map]
  simp only [List.mem_filter]

theorem row_key (h : DiskScan cfg ignore disk run db) {r : FileRow} (hr : r ∈ db.files.rows)
    (hroot : r.rootId = cfg.rootId) : fileKeying.key r = pathKey cfg r.relPath := by
  show (r.rootId, r.relPathHash) = _
  rw [hroot, h.hashed r hr hroot]
  rfl

theorem keys_nodup (h : DiskScan cfg ignore disk run db) :
    ((walk ignore disk).map (Offer.key (cfg.sweepConfig db))).Nodup := by
  unfold walk
  rw [List.map_map]
  have hnd : (disk.filter (walked ignore)).Nodup := (h.paths.of_map).filter _
  refine hnd.map_on fun f hf g hg he => ?_
  dsimp only [Function.comp] at he
  rw [offer_key, offer_key] at he
  have hf' := (List.mem_filter.mp hf).1
  have hg' := (List.mem_filter.mp hg).1
  have hpath := h.apart _ _ (Or.inr ⟨f, hf', rfl⟩) (Or.inr ⟨g, hg', rfl⟩) (congrArg Prod.snd he)
  exact List.inj_on_of_nodup_map h.paths hf' hg' hpath

theorem exact (h : DiskScan cfg ignore disk run db) :
    Exact (cfg.sweepConfig db) run.clock db (swept cfg run (walk ignore disk) db) :=
  exact_sweep h.keys_nodup h.ends.timely

/-- **Every indexable file ends in a write.** -/
theorem effect (h : DiskScan cfg ignore disk run db) {f : DiskFile} (hf : OnDisk ignore disk f) :
    ∃ w out, ⟨w, f.offer, out⟩ ∈ (swept cfg run (walk ignore disk) db).trace ∧
      out.time ≠ none ∧ Effect (cfg.sweepConfig db) (run.clock w) db
        (swept cfg run (walk ignore disk) db).db f.offer out := by
  obtain ⟨⟨w, o, out⟩, he, ho⟩ :=
    (h.ends.complete.taken h.ends.conserved).mp (mem_walk.mpr ⟨f, hf, rfl⟩)
  dsimp only at ho
  subst ho
  have hset : f.offer.settled (cfg.sweepConfig db) (run.clock w) = true :=
    settled_iff.mpr ⟨f.stat, rfl, h.settled f hf w⟩
  exact ⟨w, out, he, (h.ends.complete.timed_iff h.ends.sound he).mpr hset, h.exact.effects _ he⟩

/-- A row at a path that is not on disk is as it was. -/
theorem unseen (h : DiskScan cfg ignore disk run db) {k : ℕ × Str}
    (hk : ∀ f, OnDisk ignore disk f → pathKey cfg f.relPath ≠ k) :
    (swept cfg run (walk ignore disk) db).db.files.get k = db.files.get k := by
  refine h.exact.fresh k fun e he hek => ?_
  obtain ⟨f, hf, ho⟩ := mem_walk.mp ((h.ends.complete.taken h.ends.conserved).mpr ⟨e, he, rfl⟩)
  rw [← ho, offer_key] at hek
  exact hk f hf hek

/-- The file of a row whose key is that of a file on disk. -/
theorem path_of_key (h : DiskScan cfg ignore disk run db) {f : DiskFile}
    (hf : OnDisk ignore disk f) {r : FileRow}
    (hr : db.files.get (pathKey cfg f.relPath) = some r) :
    r.rootId = cfg.rootId ∧ cfg.fold r.relPath = cfg.fold f.relPath := by
  have hkey := Table.get_key hr
  have hroot : r.rootId = cfg.rootId := congrArg Prod.fst hkey
  have hhash : r.relPathHash = Host.md5 (cfg.fold f.relPath) := congrArg Prod.snd hkey
  have hmem := Table.get_mem hr
  rw [h.hashed r hmem hroot] at hhash
  exact ⟨hroot, h.apart _ _ (Or.inl ⟨r, hmem, hroot, rfl⟩) (Or.inr ⟨f, hf.1, rfl⟩) hhash⟩

/-- **The row of a file on disk after the sweep.** -/
theorem row (h : DiskScan cfg ignore disk run db) {f : DiskFile} (hf : OnDisk ignore disk f) :
    ∃ r t, (swept cfg run (walk ignore disk) db).db.files.get (pathKey cfg f.relPath) = some r ∧
      cfg.fold r.relPath = cfg.fold f.relPath ∧ r.lastSeenUtc = some t ∧ run.scanStart ≤ t ∧
      r.status ≠ .missing := by
  obtain ⟨w, out, he, hto, heff⟩ := h.effect hf
  obtain ⟨r, t, hr, hseen, hss, hstatus⟩ := h.ends.sound.stamped _ he hto
  dsimp only at hr
  refine ⟨r, t, offer_key f ▸ hr, ?_, hseen, hss, hstatus⟩
  cases heff with
  | touched t st q hst hu hq hun hrow =>
    rw [hr] at hrow
    cases hrow
    rw [offer_key] at hq
    exact (h.path_of_key hf hq).2
  | stored t st header i hst hu hh hun hi hrow =>
    rw [hr] at hrow
    cases hrow
    cases hq : db.files.get (f.offer.key (cfg.sweepConfig db)) <;> rfl
  | failed t what st i hst hu hw hun hi hrow =>
    rw [hr] at hrow
    cases hrow
    cases hq : db.files.get (f.offer.key (cfg.sweepConfig db)) with
    | none => rfl
    | some q =>
      rw [offer_key] at hq
      exact (h.path_of_key hf hq).2
  | dropped hrow => exact absurd rfl hto
  | gone hst hrow => exact absurd rfl hto
  | settling st hst hu hrow => exact absurd rfl hto
  | refused t what hrow => exact absurd rfl hto

/-- A file whose row still fits it is only touched. -/
theorem touched_of_unchanged (h : DiskScan cfg ignore disk run db) {f : DiskFile}
    (hf : OnDisk ignore disk f) {r : FileRow}
    (hr : db.files.get (pathKey cfg f.relPath) = some r) (hun : unchanged r f.stat = true) :
    ∃ t, (swept cfg run (walk ignore disk) db).db.files.get (pathKey cfg f.relPath)
      = some ((touchRow t).apply r) := by
  rw [← offer_key f] at hr ⊢
  obtain ⟨w, out, he, hto, heff⟩ := h.effect hf
  cases heff with
  | touched t st q hst hu hq hun' hrow =>
    rw [hr] at hq
    cases hq
    exact ⟨t, hrow⟩
  | stored t st header i hst hu hh hun' =>
    have hst' : f.stat = st := Option.some.inj hst
    rw [hst', hun' r hr] at hun
    cases hun
  | failed t what st i hst hu hw hun' =>
    have hst' : f.stat = st := Option.some.inj hst
    rw [hst', hun' r hr] at hun
    cases hun
  | dropped hrow => exact absurd rfl hto
  | gone hst hrow => exact absurd rfl hto
  | settling st hst hu hrow => exact absurd rfl hto
  | refused t what hrow => exact absurd rfl hto

/-- A file that was stored was read, and had no row that fits it. -/
theorem of_storedId (h : DiskScan cfg ignore disk run db) {i : ℕ}
    (hi : StoredId (cfg.sweepConfig db) (swept cfg run (walk ignore disk) db) i) :
    ∃ f, OnDisk ignore disk f ∧ ∃ r header t j,
      (swept cfg run (walk ignore disk) db).db.files.get (pathKey cfg f.relPath) = some r ∧
      r.id = i ∧ f.header = .ok header ∧ db.files.next ≤ j ∧
      (∀ q, db.files.get (pathKey cfg f.relPath) = some q → unchanged q f.stat = false) ∧
      r = (f.offer.info (cfg.sweepConfig db) f.stat).storedOver t j
        (db.files.get (pathKey cfg f.relPath)) ∧
      FileStored (cfg.sweepConfig db).store header.imageHdus i db
        (swept cfg run (walk ignore disk) db).db := by
  obtain ⟨⟨w, o, out⟩, he, t, r, hout, hr, rfl⟩ := hi
  obtain ⟨f, hf, ho⟩ := mem_walk.mp ((h.ends.complete.taken h.ends.conserved).mpr ⟨_, he, rfl⟩)
  dsimp only at hout ho hr
  subst ho
  subst hout
  rw [offer_key] at hr
  have heff := h.exact.effects _ he
  cases heff with
  | stored t st header j hst hu hh hun hj hrow hfs =>
    have hst' : f.stat = st := Option.some.inj hst
    dsimp only at hrow hun hfs hh
    rw [offer_key] at hrow hun hfs
    rw [hr] at hrow
    have hrow' := Option.some.inj hrow
    refine ⟨f, hf, r, header, t, j, hr, rfl, hh, hj, hst' ▸ hun, hst' ▸ hrow', ?_⟩
    rw [hrow']
    exact hfs

/-- The frames of a file whose row still fits it stay. -/
theorem frames_of_unchanged (h : DiskScan cfg ignore disk run db) {q : FileRow}
    (hq : q ∈ db.files.rows) (hun : ∀ f, OnDisk ignore disk f →
      pathKey cfg f.relPath = fileKeying.key q → unchanged q f.stat = true) :
    FramesKept q.id db (swept cfg run (walk ignore disk) db).db := by
  refine h.exact.frames q.id fun hi => ?_
  obtain ⟨f, hf, r, header, t, j, hr, hid, -, hj, hunf, hrow, -⟩ := h.of_storedId hi
  cases hp : db.files.get (pathKey cfg f.relPath) with
  | none =>
    rw [hp] at hrow
    have hlt := db.files.id_lt q hq
    have hrj : r.id = j := by
      rw [hrow]
      rfl
    have hqj : q.id = j := hid.symm.trans hrj
    exact absurd hlt (by show ¬ q.id < _; omega)
  | some p =>
    rw [hp] at hrow
    have hrp : r.id = p.id := by
      rw [hrow]
      rfl
    have hpq : p = q := db.files.eq_of_id (Table.get_mem hp) hq (hrp.symm.trans hid)
    rw [hpq] at hp
    have hfit := hun f hf (Table.get_key hp).symm
    rw [hunf q hp] at hfit
    cases hfit

end DiskScan

end Setting

end StarBase.Scan
