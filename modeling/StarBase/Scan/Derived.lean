import StarBase.Action.WriteBack
import StarBase.Lib.Run
import StarBase.Scan.ReconcileSpec
import StarBase.Scan.Worker

/-!
# The columns derived from the path

Four writers fill the columns of a `files` row that are functions of its path: the store, the error
row, the re-anchoring of a moved file, and the write-back of a file operation.

* `Derived` — the columns are the scanner's functions of `rel_path`, and the hash is that of the
  path as the root's file system compares it;
* `FilesStep` — one write of one of the four;
* `Named` — a file whose name on the walk is that of its `rel_path`, as it is unless a link leads to
  it; a write-back whose new path has the row's name and bucket and hashes as written;
* `derived_always_iff` — **PROVED**: a run keeps every row derived exactly if its steps are named.
-/

namespace StarBase.Scan

open Relational Extract
open StarBase.Action (rootFor relUnder anchored writtenFiles PathFree writtenFiles_isSome_iff)

section Columns

variable [Host]

/-- The derived columns of a row, where `cs` says which roots are case-sensitive.  A `NULL`
extension is the empty one. -/
structure Derived (cs : ℕ → Bool) (r : FileRow) : Prop where
  hash : r.relPathHash = Host.md5 (hashPath (cs r.rootId) r.relPath)
  filename : r.filename = fileName r.relPath
  ext : r.ext.getD [] = extension (fileName r.relPath)
  format : r.format = formatForExt (extension (fileName r.relPath))
  bucket : r.bucket = bucketFor r.relPath

def AllDerived (cs : ℕ → Bool) (db : IndexDb) : Prop := ∀ r ∈ db.files.rows, Derived cs r

/-! ### The four writers -/

/-- The write-back of a move to `dst`; a refused row leaves the database as it is. -/
def writeBackDb (roots : List (ℕ × Str)) (now : Micros) (fileId : ℕ) (dst : Str) (db : IndexDb) :
    IndexDb :=
  match rootFor roots dst with
  | some r =>
    (db.rekeyFile fileId (anchored now r.1 (relUnder r.2 dst)) fun _ => rfl).getD db
  | none => db.modifyFiles (fun q => q.id = fileId) missingRow

/-- A write to the `files` table: a worker stores a file or its error row, a pass reconciles a
root, or a file operation writes a move back. -/
inductive FilesStep
  | store (cfg : SweepConfig) (caches : Caches) (f : DiskFile) (header : RawHeader) (now : Micros)
  | error (cfg : SweepConfig) (f : DiskFile) (what : Str) (now : Micros)
  | reconcile (rootId : ℕ) (ss : Micros) (prior : ℕ) (order : RowOrder) (moment : ℕ → Micros)
  | writeBack (roots : List (ℕ × Str)) (now : Micros) (fileId : ℕ) (dst : Str)

/-- A sweep knows whether its root is case-sensitive. -/
def SweepConfig.on (cs : ℕ → Bool) (cfg : SweepConfig) : SweepConfig :=
  { cfg with caseSensitive := cs cfg.rootId }

def FilesStep.after (cs : ℕ → Bool) (db : IndexDb) : FilesStep → IndexDb
  | .store cfg caches f header now =>
    (storeFile cfg.store now (f.offer.info (cfg.on cs) f.stat) header ⟨db, caches⟩).2.db
  | .error cfg f what now =>
    if errorAccepted (cfg.on cs) f.offer f.stat what then
      errorDb (cfg.on cs) db f.offer f.stat what now
    else db
  | .reconcile rootId ss prior order moment => (reconcileRoot rootId ss prior order moment db).db
  | .writeBack roots now fileId dst => writeBackDb roots now fileId dst db

/-! ### What each of them leaves -/

variable {cs : ℕ → Bool} {db : IndexDb}

/-- What a step has to be to keep every row derived.  A file that is stored, or recorded for the first
time with an error, has the same name on the walk and in its `rel_path`.  A write-back that goes
through takes its row to a path with the row's name, in the row's bucket, that hashes as its root's
file system compares paths. -/
def Named (cs : ℕ → Bool) (db : IndexDb) : FilesStep → Prop
  | .store cfg caches f header now =>
    (storeFile cfg.store now (f.offer.info (cfg.on cs) f.stat) header ⟨db, caches⟩).1 = .ok () →
      fileName f.path = fileName f.relPath
  | .error cfg f what _ =>
    errorAccepted (cfg.on cs) f.offer f.stat what = true →
      db.files.get (f.offer.key (cfg.on cs)) = none → fileName f.path = fileName f.relPath
  | .reconcile _ _ _ _ _ => True
  | .writeBack roots _ fileId dst =>
    ∀ r ∈ rootFor roots dst, PathFree roots db.files fileId dst →
      ∀ q ∈ db.files.rows, q.id = fileId →
        Host.md5 (relUnder r.2 dst) = Host.md5 (hashPath (cs r.1) (relUnder r.2 dst)) ∧
          fileName (relUnder r.2 dst) = q.filename ∧ bucketFor (relUnder r.2 dst) = q.bucket

/-- A stored row is derived exactly if the file's two names are one. -/
theorem storedOver_derived_iff (cfg : SweepConfig) (f : DiskFile) (now : Micros) (i : ℕ)
    {old : Option FileRow} (hkey : ∀ r ∈ old, fileKeying.key r = f.offer.key (cfg.on cs)) :
    Derived cs ((f.offer.info (cfg.on cs) f.stat).storedOver now i old) ↔
      fileName f.path = fileName f.relPath := by
  let info := f.offer.info (cfg.on cs) f.stat
  have hext : (if info.ext = [] then none else some info.ext : Option Str).getD [] = info.ext := by
    split
    · next he => exact he.symm
    · rfl
  cases old with
  | none =>
    constructor
    · intro h
      exact h.filename
    · intro hname
      refine ⟨rfl, hname, hext.trans ?_, ?_, rfl⟩
      · exact congrArg extension hname
      · exact congrArg (fun n => formatForExt (extension n)) hname
  | some r =>
    -- the row under the key keeps its root and hash, and takes the path they were computed from
    have hroot : r.rootId = cfg.rootId := congrArg Prod.fst (hkey r rfl)
    have hhash : r.relPathHash = (f.offer.key (cfg.on cs)).2 := congrArg Prod.snd (hkey r rfl)
    constructor
    · intro h
      exact h.filename
    · intro hname
      refine ⟨?_, hname, hext.trans ?_, ?_, rfl⟩
      · show r.relPathHash = Host.md5 (hashPath (cs r.rootId) f.relPath)
        rw [hhash, hroot]
        rfl
      · exact congrArg extension hname
      · exact congrArg (fun n => formatForExt (extension n)) hname

theorem store_derived_iff (h : AllDerived cs db) (cfg : SweepConfig) (caches : Caches) (f : DiskFile)
    (header : RawHeader) (now : Micros) :
    AllDerived cs (FilesStep.after cs db (.store cfg caches f header now)) ↔
      Named cs db (.store cfg caches f header now) := by
  let info := f.offer.info (cfg.on cs) f.stat
  show (∀ r ∈ (storeFile cfg.store now info header ⟨db, caches⟩).2.db.files.rows, Derived cs r) ↔
    ((storeFile cfg.store now info header ⟨db, caches⟩).1 = .ok () → _)
  rcases hs : storeFile cfg.store now info header ⟨db, caches⟩ with ⟨e | _, t⟩
  · obtain ⟨u, hu⟩ := storeFile_error hs
    refine iff_of_true ?_ nofun
    show ∀ r ∈ t.db.files.rows, _
    rw [hu]
    exact h
  · show (∀ r ∈ t.db.files.rows, Derived cs r) ↔ (_ → _)
    rw [(storeFile_ok hs).1]
    have hkey : ∀ r ∈ db.files.get info.key, fileKeying.key r = f.offer.key (cfg.on cs) :=
      fun r hr => Table.get_key hr
    constructor
    · intro hall _
      refine (storedOver_derived_iff cfg f now db.files.next hkey).mp (hall _ ?_)
      exact Table.get_mem Table.get_upsert_self
    · intro hname
      have hnone : ∀ r ∈ (none : Option FileRow), fileKeying.key r = f.offer.key (cfg.on cs) :=
        fun r hr => absurd hr (Option.not_mem_none r)
      refine Table.forall_upsert h (fun r hr hk => ?_) fun n => ?_
      · exact (storedOver_derived_iff cfg f now 0 (fun q (hq : q ∈ some r) => by
          cases hq
          exact hk)).mpr (hname rfl)
      · exact (storedOver_derived_iff cfg f now n hnone).mpr (hname rfl)

theorem error_derived_iff (h : AllDerived cs db) (cfg : SweepConfig) (f : DiskFile) (what : Str)
    (now : Micros) : AllDerived cs (FilesStep.after cs db (.error cfg f what now)) ↔
      Named cs db (.error cfg f what now) := by
  show AllDerived cs (if _ then _ else db) ↔ (_ → _)
  cases hacc : errorAccepted (cfg.on cs) f.offer f.stat what with
  | false => exact iff_of_true h nofun
  | true =>
    rw [if_pos rfl]
    constructor
    · intro hall _ hnone
      have hrow := hall ((newErrorRow (cfg.on cs) f.offer f.stat what now).make db.files.next) (by
        show _ ∈ (db.files.upsert _ _ _).rows
        rw [Table.upsert_rows_of_none hnone]
        exact List.mem_append_right _ (List.mem_singleton_self _))
      exact hrow.filename
    · intro hname
      show ∀ r ∈ (db.files.upsert _ _ _).rows, Derived cs r
      cases hget : db.files.get (f.offer.key (cfg.on cs)) with
      | none =>
        have heq := hname rfl hget
        rw [Table.upsert_rows_of_none hget]
        intro r hr
        rcases List.mem_append.mp hr with hr | hr
        · exact h r hr
        · rw [List.mem_singleton.mp hr]
          exact ⟨rfl, heq, congrArg extension heq,
            congrArg (fun n => formatForExt (extension n)) heq, rfl⟩
      | some q =>
        rw [Table.upsert_rows_of_some hget]
        intro r hr
        obtain ⟨r', hr', rfl⟩ := List.mem_map.mp hr
        split
        · exact ⟨(h r' hr').hash, (h r' hr').filename, (h r' hr').ext, (h r' hr').format,
            (h r' hr').bucket⟩
        · exact h r' hr'

theorem Derived.anchoredRow {a r : FileRow} (ha : Derived cs a) (hroot : r.rootId = a.rootId)
    (now : Micros) : Derived cs (anchoredRow now a r) where
  hash := by
    show a.relPathHash = Host.md5 (hashPath (cs r.rootId) a.relPath)
    rw [hroot]
    exact ha.hash
  filename := ha.filename
  ext := ha.ext
  format := ha.format
  bucket := ha.bucket

theorem Derived.missingRow {r : FileRow} (h : Derived cs r) : Derived cs (missingRow.apply r) :=
  ⟨h.hash, h.filename, h.ext, h.format, h.bucket⟩

theorem reconcile_derived (h : AllDerived cs db) (rootId : ℕ) (ss : Micros) (prior : ℕ)
    (order : RowOrder) (moment : ℕ → Micros) :
    AllDerived cs (FilesStep.after cs db (.reconcile rootId ss prior order moment)) := by
  show AllDerived cs (reconcileRoot rootId ss prior order moment db).db
  cases hguard : guardTrips prior (seenNow db rootId ss) with
  | true =>
    rw [reconcile_guarded order moment hguard]
    exact h
  | false =>
    intro q hq
    obtain ⟨r, hr, -, hbecame⟩ := ((reconcile_spec order moment hguard).rows q).mp hq
    cases hbecame with
    | kept _ => exact h _ hr
    | moved a hm =>
      have hv := (mem_vanishedRows.mp hm.vanished).2.1
      have ha := mem_appearedRows.mp hm.appeared
      exact (h a ha.1).anchoredRow (hv.trans ha.2.1.symm) _
    | missing _ _ => exact (h r hr).missingRow

/-! ### The write-back -/

/-- A derived row stays derived at a new path exactly if it keeps its name and bucket there and
the path is its own hash input. -/
theorem Derived.anchored_iff {q : FileRow} (h : Derived cs q) (now : Micros) (rootId : ℕ)
    (rel : Str) :
    Derived cs (anchored now rootId rel q) ↔
      Host.md5 rel = Host.md5 (hashPath (cs rootId) rel) ∧ fileName rel = q.filename ∧
        bucketFor rel = q.bucket := by
  constructor
  · intro hd
    exact ⟨hd.hash, hd.filename.symm, hd.bucket.symm⟩
  · intro hd
    obtain ⟨hhash, hname, hbucket⟩ := hd
    have hold : fileName rel = fileName q.relPath := hname.trans h.filename
    refine ⟨hhash, hname.symm, ?_, ?_, hbucket.symm⟩
    · show q.ext.getD [] = extension (fileName rel)
      rw [hold]
      exact h.ext
    · show q.format = formatForExt (extension (fileName rel))
      rw [hold]
      exact h.format

/-- The write-back on the whole database is the one on its `files` table. -/
theorem writeBackDb_files (roots : List (ℕ × Str)) (now : Micros) (fileId : ℕ) (dst : Str)
    (db : IndexDb) :
    (writeBackDb roots now fileId dst db).files
      = (writtenFiles now roots db.files fileId dst).getD db.files := by
  unfold writeBackDb writtenFiles
  cases rootFor roots dst with
  | none => rfl
  | some r =>
    show ((db.rekeyFile fileId _ _).getD db).files = _
    unfold IndexDb.rekeyFile
    split
    · next hno => exact (congrArg (Option.getD · db.files) hno).symm
    · next U hU => exact (congrArg (Option.getD · db.files) hU).symm

/-- The rows the write-back leaves. -/
theorem writeBackDb_cases (roots : List (ℕ × Str)) (now : Micros) (fileId : ℕ) (dst : Str)
    (db : IndexDb) :
    (rootFor roots dst = none ∧ (writeBackDb roots now fileId dst db).files
        = db.files.modify (fun q => q.id = fileId) missingRow) ∨
    ∃ r, rootFor roots dst = some r ∧
      ((writeBackDb roots now fileId dst db).files = db.files ∨
        (writeBackDb roots now fileId dst db).files.rows = db.files.rows.map fun q =>
          if q.id = fileId then anchored now r.1 (relUnder r.2 dst) q else q) := by
  rw [writeBackDb_files]
  unfold writtenFiles
  cases hr : rootFor roots dst with
  | none => exact Or.inl ⟨rfl, rfl⟩
  | some r =>
    refine Or.inr ⟨r, rfl, ?_⟩
    dsimp only
    cases hU : db.files.rekey fileId (anchored now r.1 (relUnder r.2 dst)) fun _ => rfl with
    | none => exact Or.inl rfl
    | some U => exact Or.inr (Table.rekey_eq_some_iff.mp hU).1

/-- A write-back keeps every row derived exactly if it is named. -/
theorem writeBack_derived_iff (h : AllDerived cs db) (roots : List (ℕ × Str)) (now : Micros)
    (fileId : ℕ) (dst : Str) :
    AllDerived cs (FilesStep.after cs db (.writeBack roots now fileId dst)) ↔
      Named cs db (.writeBack roots now fileId dst) := by
  show (∀ q ∈ (writeBackDb roots now fileId dst db).files.rows, Derived cs q) ↔
    ∀ r ∈ rootFor roots dst, PathFree roots db.files fileId dst →
      ∀ q ∈ db.files.rows, q.id = fileId → _
  rw [writeBackDb_files]
  cases hr : rootFor roots dst with
  | none =>
    simp only [Option.not_mem_none, false_implies, implies_true, iff_true]
    intro q hq
    rw [writtenFiles, hr] at hq
    obtain ⟨r, hmem, rfl⟩ := List.mem_map.mp hq
    split
    · exact (h r hmem).missingRow
    · exact h r hmem
  | some r =>
    simp only [Option.mem_def, Option.some.injEq, forall_eq']
    cases hU : writtenFiles now roots db.files fileId dst with
    | none =>
      refine iff_of_true h fun hfree q hq hqi => ?_
      have hsome := (writtenFiles_isSome_iff now (Table.mem_ids.mpr ⟨q, hq, hqi⟩)).mpr hfree
      rw [hU] at hsome
      cases hsome
    | some U =>
      have hrows : U.rows = db.files.rows.map fun q =>
          if q.id = fileId then anchored now r.1 (relUnder r.2 dst) q else q := by
        rw [writtenFiles, hr] at hU
        exact (Table.rekey_eq_some_iff.mp hU).1
      show (∀ q ∈ U.rows, Derived cs q) ↔ _
      rw [hrows]
      constructor
      · intro hall _ q hq hqi
        refine ((h q hq).anchored_iff now r.1 _).mp (hall _ (List.mem_map.mpr ⟨q, hq, ?_⟩))
        rw [if_pos hqi]
      · intro hnamed q' hq'
        obtain ⟨q, hq, rfl⟩ := List.mem_map.mp hq'
        by_cases hqi : q.id = fileId
        · rw [if_pos hqi]
          have hfree := (writtenFiles_isSome_iff now
            (Table.mem_ids.mpr ⟨q, hq, hqi⟩)).mp (by rw [hU]; rfl)
          exact ((h q hq).anchored_iff now r.1 _).mpr (hnamed hfree q hq hqi)
        · rw [if_neg hqi]
          exact h q hq

/-! ### Runs -/

/-- One write keeps every row derived exactly if it is named. -/
theorem filesStep_derived_iff (h : AllDerived cs db) (st : FilesStep) :
    AllDerived cs (st.after cs db) ↔ Named cs db st := by
  cases st with
  | store cfg caches f header now => exact store_derived_iff h cfg caches f header now
  | error cfg f what now => exact error_derived_iff h cfg f what now
  | reconcile rootId ss prior order moment =>
    exact iff_of_true (reconcile_derived h rootId ss prior order moment) trivial
  | writeBack roots now fileId dst => exact writeBack_derived_iff h roots now fileId dst

/-- **The derived columns, exactly.**  From a database whose rows are derived, they stay so in
every state of a run exactly if each of its steps is named. -/
theorem derived_always_iff (cs : ℕ → Bool) (db : IndexDb) (h : AllDerived cs db)
    (steps : List FilesStep) :
    Run.Always (FilesStep.after cs) (AllDerived cs) db steps ↔
      Run.Each (FilesStep.after cs) (Named cs) db steps :=
  Run.always_iff_each (A := fun _ _ => True) (fun _ st hd _ => filesStep_derived_iff hd st) h
    (Run.each_of_forall fun _ _ => trivial)

end Columns

/-! ### A frame filed in another bucket -/

section Filed

attribute [local instance] plainHost

/-- The sweep of a root that does not distinguish case. -/
def foldingSweep : SweepConfig where
  rootId := 1
  caseSensitive := false
  settleSeconds := 0
  store := ⟨HeaderMapping.defaults, {}, {}⟩
  sessionOffset := 0

/-- The sweep stores `lights/x.fits`, then the file is moved to `dst`. -/
def storedThenMoved (dst : Str) : List FilesStep :=
  [.store foldingSweep {} (fileAt "lights/x.fits".toList ⟨1, 1, 0, 1⟩ (.error [])) ⟨[], by simp⟩ 0,
    .writeBack [(1, "/r".toList)] 0 1 dst]

/-- No root distinguishes case. -/
def allFold (_ : ℕ) : Bool := false

instance decidableDerived (r : FileRow) : Decidable (Derived allFold r) :=
  decidable_of_iff
    (r.relPathHash = Host.md5 (hashPath (allFold r.rootId) r.relPath) ∧
      r.filename = fileName r.relPath ∧ r.ext.getD [] = extension (fileName r.relPath) ∧
      r.format = formatForExt (extension (fileName r.relPath)) ∧ r.bucket = bucketFor r.relPath)
    ⟨fun h => ⟨h.1, h.2.1, h.2.2.1, h.2.2.2.1, h.2.2.2.2⟩, fun h => ⟨h.1, h.2, h.3, h.4, h.5⟩⟩

instance (db : IndexDb) : Decidable (AllDerived allFold db) :=
  inferInstanceAs (Decidable (∀ r ∈ db.files.rows, Derived allFold r))

theorem derived_always_lights :
    Run.Always (FilesStep.after allFold) (AllDerived allFold) (IndexDb.blank {})
      (storedThenMoved "/r/lights/m31/x.fits".toList) := by
  refine (derived_always_iff allFold (IndexDb.blank {}) (by decide) _).mpr
    ⟨fun _ => rfl, ?_, trivial⟩
  have hnamed : ∀ r ∈ rootFor [(1, "/r".toList)] "/r/lights/m31/x.fits".toList,
      ∀ q ∈ (FilesStep.after allFold (IndexDb.blank {}) (.store foldingSweep {}
        (fileAt "lights/x.fits".toList ⟨1, 1, 0, 1⟩ (.error [])) ⟨[], by simp⟩ 0)).files.rows, q.id = 1 →
        Host.md5 (relUnder r.2 "/r/lights/m31/x.fits".toList) = Host.md5 (hashPath (allFold r.1)
          (relUnder r.2 "/r/lights/m31/x.fits".toList)) ∧
          fileName (relUnder r.2 "/r/lights/m31/x.fits".toList) = q.filename ∧
          bucketFor (relUnder r.2 "/r/lights/m31/x.fits".toList) = q.bucket := by decide
  exact fun r hr _ => hnamed r hr

/-- Moved to `/r/Process`, the row keeps the bucket `lights` and is hashed without folding. -/
theorem derived_lost_on_move :
    AllDerived allFold (IndexDb.blank {}) ∧
      ¬ Run.Always (FilesStep.after allFold) (AllDerived allFold) (IndexDb.blank {})
        (storedThenMoved "/r/Process/x.fits".toList) :=
  ⟨by decide, by decide⟩

/-- The link `a.fits` to `lights/b.fits` is stored under the path of the file, with its own name. -/
theorem derived_lost_at_link :
    ¬ Run.Always (FilesStep.after allFold) (AllDerived allFold) (IndexDb.blank {})
      [.store foldingSweep {}
        ⟨"a.fits".toList, "lights/b.fits".toList, ⟨1, 1, 0, 1⟩, .error []⟩ ⟨[], by simp⟩ 0] := by
  decide

end Filed

end StarBase.Scan
