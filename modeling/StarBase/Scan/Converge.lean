import StarBase.Scan.Presence
import StarBase.Scan.DiskScan

/-!
# A scan converges to the disk

* `scan_rows_iff` — **PROVED**: after a complete scan the live rows are those of the files on disk,
  one each;
* `scan_status` — **PROVED**: a row is `ok` if its file was skipped as unchanged or stored, and
  `error` if it was read and failed;
* `second_scan` — **PROVED**: a second scan of the same disk changes nothing but stamps and the
  rows it reads again;
* `scan_converges` — **PROVED**: all of it.
-/

namespace StarBase.Scan

open Relational Extract

section Converge

variable [Host] {W : Type} [DecidableEq W]

/-- The stamps of the root's rows are from before `ss`. -/
def Stale (rootId : ℕ) (ss : Micros) (db : IndexDb) : Prop :=
  ∀ r ∈ db.files.rows, r.rootId = rootId →
    r.firstSeenUtc < ss ∧ ∀ t, r.lastSeenUtc = some t → t < ss

/-- A scan that the guard lets reconcile, of an index whose stamps are older than it. -/
structure FullScan (cfg : ScanConfig) (ignore : List Str) (disk : List DiskFile) (run : ScanRun W)
    (db : IndexDb) : Prop extends DiskScan cfg ignore disk run db where
  stale : Stale cfg.rootId run.scanStart db
  passes : guarded cfg run (walk ignore disk) db = false

variable {cfg : ScanConfig} {ignore : List Str} {disk : List DiskFile} {run : ScanRun W}
  {db : IndexDb}

/-! ### The rows the sweep left -/

/-- A row of the root after the sweep is that of a file on disk, or an old row of no file. -/
theorem DiskScan.row_cases (h : DiskScan cfg ignore disk run db) {r : FileRow}
    (hr : r ∈ (swept cfg run (walk ignore disk) db).db.files.rows) (hroot : r.rootId = cfg.rootId) :
    (∃ f t, OnDisk ignore disk f ∧ fileKeying.key r = pathKey cfg f.relPath ∧
        cfg.fold r.relPath = cfg.fold f.relPath ∧ r.lastSeenUtc = some t ∧ run.scanStart ≤ t ∧
        r.status ≠ .missing) ∨
      (r ∈ db.files.rows ∧ ¬ PathOnDisk cfg ignore disk r.relPath) := by
  by_cases hk : ∃ f, OnDisk ignore disk f ∧ pathKey cfg f.relPath = fileKeying.key r
  · obtain ⟨f, hf, hkey⟩ := hk
    obtain ⟨q, t, hq, hpath, hseen, hss, hstatus⟩ := h.row hf
    rw [hkey, Table.get_of_mem hr] at hq
    cases hq
    exact Or.inl ⟨f, t, hf, hkey.symm, hpath, hseen, hss, hstatus⟩
  · have hget := h.unseen (k := fileKeying.key r) fun f hf he => hk ⟨f, hf, he⟩
    rw [Table.get_of_mem hr] at hget
    have hmem := Table.get_mem hget.symm
    refine Or.inr ⟨hmem, fun hp => ?_⟩
    obtain ⟨f, hf, hpath⟩ := hp
    exact hk ⟨f, hf, by rw [h.row_key hmem hroot, pathKey, pathKey, hpath]⟩

theorem DiskScan.swept_hashed (h : DiskScan cfg ignore disk run db) :
    HashesPaths cfg (swept cfg run (walk ignore disk) db).db := by
  intro r hr hroot
  rcases h.row_cases hr hroot with ⟨f, t, hf, hkey, hpath, -⟩ | ⟨hmem, -⟩
  · have : r.relPathHash = Host.md5 (cfg.fold f.relPath) := congrArg Prod.snd hkey
    rw [this, hpath]
  · exact h.hashed r hmem hroot

/-- A row of the root that the sweep did not see is that of no file. -/
theorem DiskScan.not_onDisk_of_vanished (h : DiskScan cfg ignore disk run db) {r : FileRow}
    (hv : r ∈ vanishedRows (swept cfg run (walk ignore disk) db).db cfg.rootId run.scanStart) :
    r ∈ db.files.rows ∧ ¬ PathOnDisk cfg ignore disk r.relPath := by
  obtain ⟨hr, hroot, -, hseen⟩ := mem_vanishedRows.mp hv
  rcases h.row_cases hr hroot with ⟨f, t, hf, -, -, hlast, hss, -⟩ | hold
  · simp [seenSince, hlast, hss] at hseen
  · exact hold

/-- An old row keeps the instant it was first seen at. -/
theorem DiskScan.first_seen (h : DiskScan cfg ignore disk run db) {f : DiskFile}
    (hf : OnDisk ignore disk f) {r q : FileRow}
    (hr : (swept cfg run (walk ignore disk) db).db.files.get (pathKey cfg f.relPath) = some r)
    (hq : db.files.get (pathKey cfg f.relPath) = some q) : r.firstSeenUtc = q.firstSeenUtc := by
  obtain ⟨w, out, he, hto, heff⟩ := h.effect hf
  rw [← offer_key f] at hr hq
  cases heff with
  | touched t st p hst hu hp hun hrow =>
    rw [hr] at hrow
    rw [hq] at hp
    cases hrow
    cases hp
    rfl
  | stored t st header i hst hu hh hun hi hrow =>
    rw [hr, hq] at hrow
    cases hrow
    rfl
  | failed t what st i hst hu hw hun hi hrow =>
    rw [hr, hq] at hrow
    cases hrow
    rfl
  | dropped hrow => exact absurd rfl hto
  | gone hst hrow => exact absurd rfl hto
  | settling st hst hu hrow => exact absurd rfl hto
  | refused t what hrow => exact absurd rfl hto

/-- A row that appeared is that of a file on disk that had no row. -/
theorem FullScan.of_appeared (h : FullScan cfg ignore disk run db) {r : FileRow}
    (ha : r ∈ appearedRows (swept cfg run (walk ignore disk) db).db cfg.rootId run.scanStart) :
    ∃ f, OnDisk ignore disk f ∧ fileKeying.key r = pathKey cfg f.relPath ∧
      cfg.fold r.relPath = cfg.fold f.relPath ∧ r.status ≠ .missing ∧
      db.files.get (pathKey cfg f.relPath) = none := by
  obtain ⟨hr, hroot, hfirst⟩ := mem_appearedRows.mp ha
  rcases h.row_cases hr hroot with ⟨f, t, hf, hkey, hpath, -, -, hstatus⟩ | ⟨hmem, -⟩
  · refine ⟨f, hf, hkey, hpath, hstatus, ?_⟩
    cases hq : db.files.get (pathKey cfg f.relPath) with
    | none => rfl
    | some q =>
      have hrow := Table.get_of_mem hr
      rw [hkey] at hrow
      have hsame := h.first_seen hf hrow hq
      have hold := (h.stale q (Table.get_mem hq) (h.path_of_key hf hq).1).1
      exact absurd (hsame ▸ hfirst) (not_le.mpr hold)
  · exact absurd hfirst (not_le.mpr (h.stale r hmem hroot).1)

/-- The row that a moved row takes the place of is not itself moved. -/
theorem FullScan.target_free (h : FullScan cfg ignore disk run db) {v a : FileRow}
    (hm : Moved (swept cfg run (walk ignore disk) db).db cfg.rootId run.scanStart v a) (u : FileRow) :
    ¬ Moved (swept cfg run (walk ignore disk) db).db cfg.rootId run.scanStart u v := by
  intro hu
  obtain ⟨f, hf, -, hpath, -⟩ := h.of_appeared hu.appeared
  exact (h.not_onDisk_of_vanished hm.vanished).2 ⟨f, hf, hpath.symm⟩

/-! ### The rows after the scan -/

/-- The row at the path of a file: the one the sweep left, or a moved row in its place. -/
theorem FullScan.final_row (h : FullScan cfg ignore disk run db) {f : DiskFile}
    (hf : OnDisk ignore disk f) :
    ∃ r, (swept cfg run (walk ignore disk) db).db.files.get (pathKey cfg f.relPath) = some r ∧
      ∃ q ∈ (scanRoot cfg run (walk ignore disk) db).db.files.rows,
        q = r ∨ ∃ v, Moved (swept cfg run (walk ignore disk) db).db cfg.rootId run.scanStart v r ∧
          q = anchoredRow (run.moment v.id) r v := by
  have hrec := scan_reconciled h.ends h.passes
  obtain ⟨r, t, hr, hpath, hseen, hss, hstatus⟩ := h.row hf
  refine ⟨r, hr, ?_⟩
  have hmem := Table.get_mem hr
  by_cases hm : ∃ v, Moved (swept cfg run (walk ignore disk) db).db cfg.rootId run.scanStart v r
  · obtain ⟨v, hv⟩ := hm
    have hvrow := (mem_vanishedRows.mp hv.vanished).1
    exact ⟨_, (hrec.rows _).mpr ⟨v, hvrow, h.target_free hv, .moved r hv⟩, Or.inr ⟨v, hv, rfl⟩⟩
  · have hkept : r ∉ vanishedRows (swept cfg run (walk ignore disk) db).db cfg.rootId
        run.scanStart := by
      intro hv
      exact (h.not_onDisk_of_vanished hv).2 ⟨f, hf, hpath.symm⟩
    exact ⟨r, (hrec.rows r).mpr ⟨r, hmem, fun v hv => hm ⟨v, hv⟩, .kept hkept⟩, Or.inl rfl⟩

omit [Host] in
theorem anchoredRow_key {now : Micros} {a v : FileRow} (h : v.rootId = a.rootId) :
    fileKeying.key (anchoredRow now a v) = fileKeying.key a := by
  show (v.rootId, a.relPathHash) = (a.rootId, a.relPathHash)
  rw [h]

theorem Moved.root_eq {db : IndexDb} {rootId : ℕ} {ss : Micros} {v a : FileRow}
    (h : Moved db rootId ss v a) : v.rootId = a.rootId := by
  rw [(mem_vanishedRows.mp h.vanished).2.1, (mem_appearedRows.mp h.appeared).2.1]

/-- The key of the row at a file's path. -/
theorem final_key {f : DiskFile} {r q : FileRow}
    (hr : (swept cfg run (walk ignore disk) db).db.files.get (pathKey cfg f.relPath) = some r)
    (hq : q = r ∨ ∃ v, Moved (swept cfg run (walk ignore disk) db).db cfg.rootId run.scanStart v r ∧
      q = anchoredRow (run.moment v.id) r v) :
    fileKeying.key q = pathKey cfg f.relPath := by
  rcases hq with rfl | ⟨v, hv, rfl⟩
  · exact Table.get_key hr
  · rw [anchoredRow_key hv.root_eq]
    exact Table.get_key hr

/-- **The rows of the root after the scan**: live rows of files on disk, and missing rows of no
file. -/
theorem FullScan.final_cases (h : FullScan cfg ignore disk run db) {q : FileRow}
    (hq : q ∈ (scanRoot cfg run (walk ignore disk) db).db.files.rows)
    (hroot : q.rootId = cfg.rootId) :
    q.relPathHash = Host.md5 (cfg.fold q.relPath) ∧
      ((PathOnDisk cfg ignore disk q.relPath ∧ q.status ≠ .missing) ∨
        (¬ PathOnDisk cfg ignore disk q.relPath ∧ q.status = .missing ∧
          ∃ r ∈ db.files.rows, r.rootId = cfg.rootId ∧ q = missingRow.apply r)) := by
  obtain ⟨r, hr, hfree, hb⟩ := ((scan_reconciled h.ends h.passes).rows q).mp hq
  cases hb with
  | kept hk =>
    refine ⟨h.swept_hashed q hr hroot, ?_⟩
    rcases h.row_cases hr hroot with ⟨f, t, hf, hkey, hpath, -, -, hstatus⟩ | ⟨hmem, hnot⟩
    · exact Or.inl ⟨⟨f, hf, hpath.symm⟩, hstatus⟩
    · have hmiss : q.status = .missing := by
        by_contra hne
        refine hk (mem_vanishedRows.mpr ⟨hr, hroot, hne, ?_⟩)
        unfold seenSince
        cases hl : q.lastSeenUtc with
        | none => rfl
        | some t =>
          have hold := (h.stale q hmem hroot).2 t hl
          simpa using hold
      refine Or.inr ⟨hnot, hmiss, q, hmem, hroot, ?_⟩
      show q = { q with status := .missing }
      rw [← hmiss]
  | moved a hm =>
    obtain ⟨f, hf, -, hpath, hstatus, -⟩ := h.of_appeared hm.appeared
    have ha := mem_appearedRows.mp hm.appeared
    exact ⟨h.swept_hashed a ha.1 ha.2.1, Or.inl ⟨⟨f, hf, hpath.symm⟩, hstatus⟩⟩
  | missing hv hn =>
    have hold := h.not_onDisk_of_vanished hv
    have hvroot := (mem_vanishedRows.mp hv).2.1
    exact ⟨h.hashed r hold.1 hvroot, Or.inr ⟨hold.2, rfl, r, hold.1, hvroot, rfl⟩⟩

theorem FullScan.final_hashed (h : FullScan cfg ignore disk run db) :
    HashesPaths cfg (scanRoot cfg run (walk ignore disk) db).db :=
  fun _ hq hroot => (h.final_cases hq hroot).1

/-- **The live rows are those of the files on disk, one each.** -/
theorem scan_rows_iff (h : FullScan cfg ignore disk run db) (p : Str) :
    (∃ q ∈ (scanRoot cfg run (walk ignore disk) db).db.files.rows,
        q.rootId = cfg.rootId ∧ q.status ≠ .missing ∧ cfg.fold q.relPath = cfg.fold p) ↔
      PathOnDisk cfg ignore disk p := by
  constructor
  · intro hq
    obtain ⟨q, hq, hroot, hlive, hpath⟩ := hq
    rcases (h.final_cases hq hroot).2 with ⟨⟨f, hf, hfq⟩, -⟩ | ⟨-, hmiss, -⟩
    · exact ⟨f, hf, hfq.trans hpath⟩
    · exact absurd hmiss hlive
  · intro hp
    obtain ⟨f, hf, hfp⟩ := hp
    obtain ⟨r, hr, q, hq, hcase⟩ := h.final_row hf
    obtain ⟨r', t, hr', hpath, -, -, hstatus⟩ := h.row hf
    rw [hr] at hr'
    cases hr'
    have hroot : q.rootId = cfg.rootId := congrArg Prod.fst (final_key hr hcase)
    rcases hcase with rfl | ⟨v, hv, rfl⟩
    · exact ⟨q, hq, hroot, hstatus, hpath.trans hfp⟩
    · exact ⟨_, hq, hroot, hstatus, hpath.trans hfp⟩

theorem scan_row_unique (h : FullScan cfg ignore disk run db) {q q' : FileRow}
    (hq : q ∈ (scanRoot cfg run (walk ignore disk) db).db.files.rows)
    (hq' : q' ∈ (scanRoot cfg run (walk ignore disk) db).db.files.rows)
    (hroot : q.rootId = cfg.rootId) (hroot' : q'.rootId = cfg.rootId)
    (hpath : cfg.fold q.relPath = cfg.fold q'.relPath) : q = q' := by
  refine Table.eq_of_key _ hq hq' ?_
  show (q.rootId, q.relPathHash) = (q'.rootId, q'.relPathHash)
  rw [h.final_hashed q hq hroot, h.final_hashed q' hq' hroot', hroot, hroot', hpath]

/-! ### The status of a row -/

/-- The index has a row for the file that still fits it, so the file is not read. -/
def Skipped (cfg : ScanConfig) (db : IndexDb) (f : DiskFile) : Prop :=
  ∃ r, db.files.get (pathKey cfg f.relPath) = some r ∧ unchanged r f.stat = true

/-- The file was read and its header stored. -/
def Stored (s : SweepState W) (f : DiskFile) : Prop :=
  ∃ w t, ⟨w, f.offer, .stored t⟩ ∈ s.trace

/-- The file was read, and an exception was recorded. -/
def Failed (s : SweepState W) (f : DiskFile) : Prop :=
  ∃ w t what, ⟨w, f.offer, .failed t what⟩ ∈ s.trace

omit [Host] in
theorem unchanged_touch {r : FileRow} {st : FileStat} {t : Micros} (h : unchanged r st = true) :
    unchanged ((touchRow t).apply r) st = true := by
  simp only [unchanged, Bool.and_eq_true] at h ⊢
  exact ⟨⟨by simp [touchRow], h.1.2⟩, h.2⟩

theorem DiskScan.swept_status (h : DiskScan cfg ignore disk run db) {f : DiskFile}
    (hf : OnDisk ignore disk f) {r : FileRow}
    (hr : (swept cfg run (walk ignore disk) db).db.files.get (pathKey cfg f.relPath) = some r) :
    (r.status = .ok ↔ Skipped cfg db f ∨ Stored (swept cfg run (walk ignore disk) db) f) ∧
      (r.status = .error ↔ Failed (swept cfg run (walk ignore disk) db) f) ∧
      (r.status = .ok → unchanged r f.stat = true) ∧
      (r.status = .error → ¬ Skipped cfg db f ∧
        ∃ what, Unstorable (cfg.sweepConfig db) f.offer f.stat what) := by
  rw [← offer_key f] at hr
  -- Whatever outcome the trace has for the file, the row's status agrees with it.
  have hstored : Stored (swept cfg run (walk ignore disk) db) f → r.status = .ok := by
    intro hs
    obtain ⟨w, t, he⟩ := hs
    cases h.exact.effects _ he with
    | stored t st header i hst hu hh hun hi hrow =>
      rw [hr] at hrow
      cases hrow
      cases db.files.get (f.offer.key (cfg.sweepConfig db)) <;> rfl
  have hfailed : Failed (swept cfg run (walk ignore disk) db) f → r.status = .error := by
    intro hs
    obtain ⟨w, t, what, he⟩ := hs
    cases h.exact.effects _ he with
    | failed t what st i hst hu hw hun hi hrow =>
      rw [hr] at hrow
      cases hrow
      cases db.files.get (f.offer.key (cfg.sweepConfig db)) <;> rfl
  obtain ⟨w, out, he, hto, heff⟩ := h.effect hf
  unfold Skipped
  rw [← offer_key f]
  cases heff with
  | touched t st q hst hu hq hun hrow =>
    rw [hr] at hrow
    cases hrow
    have hst' : f.stat = st := Option.some.inj hst
    refine ⟨⟨fun _ => Or.inl ⟨q, hq, hst' ▸ hun⟩, fun _ => rfl⟩,
      ⟨fun hs => (by cases hs), fun hs => hfailed hs⟩, fun _ => ?_, fun hs => (by cases hs)⟩
    rw [hst']
    exact unchanged_touch hun
  | stored t st header i hst hu hh hun hi hrow =>
    have hok : r.status = .ok := hstored ⟨w, t, he⟩
    have hst' : f.stat = st := Option.some.inj hst
    refine ⟨⟨fun _ => Or.inr ⟨w, t, he⟩, fun _ => hok⟩,
      ⟨fun hs => ?_, fun hs => hfailed hs⟩, fun _ => ?_, fun hs => ?_⟩
    · rw [hok] at hs
      cases hs
    · rw [hr] at hrow
      cases hrow
      rw [hst']
      cases db.files.get (f.offer.key (cfg.sweepConfig db)) <;>
        simp [unchanged, FileInfo.storedOver, FileInfo.newRow, FileInfo.storedRow, Offer.info]
    · rw [hok] at hs
      cases hs
  | failed t what st i hst hu hw hun hi hrow =>
    have herr : r.status = .error := hfailed ⟨w, t, what, he⟩
    have hst' : f.stat = st := Option.some.inj hst
    have hskip : ¬ ∃ q, db.files.get (f.offer.key (cfg.sweepConfig db)) = some q ∧
        unchanged q f.stat = true := by
      intro hs
      obtain ⟨q, hq, hun'⟩ := hs
      rw [hst', hun q hq] at hun'
      cases hun'
    refine ⟨⟨fun hs => ?_, fun hs => ?_⟩, ⟨fun _ => ⟨w, t, what, he⟩, fun _ => herr⟩,
      fun hs => ?_, fun _ => ⟨hskip, what, hst' ▸ hw⟩⟩
    · rw [herr] at hs
      cases hs
    · rcases hs with hs | hs
      · exact absurd hs hskip
      · exact hstored hs
    · rw [herr] at hs
      cases hs
  | dropped hrow => exact absurd rfl hto
  | gone hst hrow => exact absurd rfl hto
  | settling st hst hu hrow => exact absurd rfl hto
  | refused t what hrow => exact absurd rfl hto

/-- The row of the sweep behind a row at a file's path. -/
theorem FullScan.final_of_path (h : FullScan cfg ignore disk run db) {f : DiskFile}
    (hf : OnDisk ignore disk f) {q : FileRow}
    (hq : q ∈ (scanRoot cfg run (walk ignore disk) db).db.files.rows)
    (hroot : q.rootId = cfg.rootId) (hpath : cfg.fold q.relPath = cfg.fold f.relPath) :
    fileKeying.key q = pathKey cfg f.relPath ∧
      ∃ r, (swept cfg run (walk ignore disk) db).db.files.get (pathKey cfg f.relPath) = some r ∧
        (q = r ∨ ∃ v, Moved (swept cfg run (walk ignore disk) db).db cfg.rootId run.scanStart v r ∧
          q = anchoredRow (run.moment v.id) r v) := by
  obtain ⟨r, hr, p, hp, hcase⟩ := h.final_row hf
  have hqp : q = p := by
    refine Table.eq_of_key _ hq hp ?_
    rw [final_key hr hcase]
    show (q.rootId, q.relPathHash) = (cfg.rootId, Host.md5 (cfg.fold f.relPath))
    rw [h.final_hashed q hq hroot, hroot, hpath]
  rw [hqp]
  exact ⟨final_key hr hcase, r, hr, hcase⟩

/-- **The status of a row**: `ok` if its file was skipped or stored, `error` if it failed. -/
theorem scan_status (h : FullScan cfg ignore disk run db) {f : DiskFile}
    (hf : OnDisk ignore disk f) {q : FileRow}
    (hq : q ∈ (scanRoot cfg run (walk ignore disk) db).db.files.rows)
    (hroot : q.rootId = cfg.rootId) (hpath : cfg.fold q.relPath = cfg.fold f.relPath) :
    (q.status = .ok ↔ Skipped cfg db f ∨ Stored (swept cfg run (walk ignore disk) db) f) ∧
      (q.status = .error ↔ Failed (swept cfg run (walk ignore disk) db) f) ∧
      (q.status = .ok → unchanged q f.stat = true) ∧
      (q.status = .error → ¬ Skipped cfg db f ∧
        ∃ what, Unstorable (cfg.sweepConfig db) f.offer f.stat what) := by
  obtain ⟨-, r, hr, hcase⟩ := h.final_of_path hf hq hroot hpath
  have hs := h.swept_status hf hr
  rcases hcase with rfl | ⟨v, hv, rfl⟩
  · exact hs
  · exact hs

/-- **Rows of files that are gone** are missing, or at the path of another file. -/
theorem scan_vanished (h : FullScan cfg ignore disk run db) {r : FileRow} (hr : r ∈ db.files.rows)
    (hroot : r.rootId = cfg.rootId) (hlive : r.status ≠ .missing)
    (hgone : ¬ PathOnDisk cfg ignore disk r.relPath) :
    ∃ q ∈ (scanRoot cfg run (walk ignore disk) db).db.files.rows, q.id = r.id ∧
      (q = missingRow.apply r ∨ (q.status ≠ .missing ∧ PathOnDisk cfg ignore disk q.relPath)) := by
  have hget := h.unseen (k := fileKeying.key r) fun f hf he => hgone ⟨f, hf, by
    have hkey := h.row_key hr hroot
    rw [hkey] at he
    exact h.apart _ _ (Or.inr ⟨f, hf.1, rfl⟩) (Or.inl ⟨r, hr, hroot, rfl⟩) (congrArg Prod.snd he)⟩
  rw [Table.get_of_mem hr] at hget
  have hmem := Table.get_mem hget
  have hrec := scan_reconciled h.ends h.passes
  have hfree : ∀ u, ¬ Moved (swept cfg run (walk ignore disk) db).db cfg.rootId run.scanStart u r := by
    intro u hu
    obtain ⟨f, hf, -, hpath, -⟩ := h.of_appeared hu.appeared
    exact hgone ⟨f, hf, hpath.symm⟩
  have hseen : seenSince run.scanStart r = false := by
    unfold seenSince
    cases hl : r.lastSeenUtc with
    | none => rfl
    | some t => simpa using (h.stale r hr hroot).2 t hl
  have hv : r ∈ vanishedRows (swept cfg run (walk ignore disk) db).db cfg.rootId run.scanStart :=
    mem_vanishedRows.mpr ⟨hmem, hroot, hlive, hseen⟩
  by_cases hm : ∃ a, Moved (swept cfg run (walk ignore disk) db).db cfg.rootId run.scanStart r a
  · obtain ⟨a, ha⟩ := hm
    obtain ⟨f, hf, -, hpath, hstatus, -⟩ := h.of_appeared ha.appeared
    exact ⟨_, (hrec.rows _).mpr ⟨r, hmem, hfree, .moved a ha⟩, rfl,
      Or.inr ⟨hstatus, f, hf, hpath.symm⟩⟩
  · exact ⟨_, (hrec.rows _).mpr ⟨r, hmem, hfree, .missing hv fun a ha => hm ⟨a, ha⟩⟩, rfl,
      Or.inl rfl⟩

/-! ### The second scan -/

/-- The rows a later scan reads again. -/
def ReadAgain (rootId : ℕ) (q : FileRow) : Prop := q.rootId = rootId ∧ q.status = .error

/-- Between `d` and `d'` no file came or went, and apart from the rows read again only the instants
rows were last seen at changed. -/
structure SameButStamps (rootId : ℕ) (d d' : IndexDb) : Prop where
  ids : ∀ i, i ∈ d'.files.ids ↔ i ∈ d.files.ids
  rows : ∀ q ∈ d.files.rows, ¬ ReadAgain rootId q →
    ∃ seen, { q with lastSeenUtc := seen } ∈ d'.files.rows
  frames : ∀ q ∈ d.files.rows, ¬ ReadAgain rootId q → FramesKept q.id d d'

theorem FullScan.final_known (h : FullScan cfg ignore disk run db) {p : Str}
    (hp : KnownPath cfg (scanRoot cfg run (walk ignore disk) db).db disk p) :
    KnownPath cfg db disk p := by
  rcases hp with ⟨q, hq, hroot, rfl⟩ | hp
  · rcases (h.final_cases hq hroot).2 with ⟨⟨f, hf, hpath⟩, -⟩ | ⟨-, -, r, hr, hrroot, rfl⟩
    · exact Or.inr ⟨f, hf.1, hpath⟩
    · exact Or.inl ⟨r, hr, hrroot, rfl⟩
  · exact Or.inr hp

/-- A second scan that runs to its end is one of a settled disk too. -/
theorem FullScan.again (h : FullScan cfg ignore disk run db) {run' : ScanRun W}
    (hends : RunsToEnd cfg run' (walk ignore disk) (scanRoot cfg run (walk ignore disk) db).db)
    (hsettled : ∀ f, OnDisk ignore disk f → ∀ w, unsettled
      (cfg.sweepConfig (scanRoot cfg run (walk ignore disk) db).db) (run'.clock w) f.stat = false) :
    DiskScan cfg ignore disk run' (scanRoot cfg run (walk ignore disk) db).db where
  ends := hends
  paths := h.paths
  hashed := h.final_hashed
  apart p q hp hq := h.apart p q (h.final_known hp) (h.final_known hq)
  settled := hsettled

section Again

variable {run' : ScanRun W}

/-- The row a file on disk has before the second scan. -/
theorem FullScan.known (h : FullScan cfg ignore disk run db) {f : DiskFile}
    (hf : OnDisk ignore disk f) :
    ∃ q, (scanRoot cfg run (walk ignore disk) db).db.files.get (pathKey cfg f.relPath) = some q ∧
      (q.status = .ok → unchanged q f.stat = true) := by
  obtain ⟨r, hr, q, hq, hcase⟩ := h.final_row hf
  have hkey := final_key hr hcase
  refine ⟨q, Table.get_eq_some_iff.mpr ⟨hq, hkey⟩, ?_⟩
  have hs := (h.swept_status hf hr).2.2.1
  rcases hcase with rfl | ⟨v, hv, rfl⟩
  · exact hs
  · exact hs

/-- Nothing vanishes between two scans of one disk. -/
theorem nothing_vanished (h : FullScan cfg ignore disk run db)
    (h' : DiskScan cfg ignore disk run' (scanRoot cfg run (walk ignore disk) db).db) :
    vanishedRows (swept cfg run' (walk ignore disk) (scanRoot cfg run (walk ignore disk) db).db).db
      cfg.rootId run'.scanStart = [] := by
  rw [List.eq_nil_iff_forall_not_mem]
  intro r hv
  have hold := h'.not_onDisk_of_vanished hv
  have hlive := mem_vanishedRows.mp hv
  rcases (h.final_cases hold.1 hlive.2.1).2 with ⟨hdisk, -⟩ | ⟨-, hmiss, -⟩
  · exact hold.2 hdisk
  · exact hlive.2.2.1 hmiss

/-- A row of a file on disk is `ok` or `error`. -/
theorem FullScan.ok_of_not_readAgain (h : FullScan cfg ignore disk run db) {f : DiskFile}
    (hf : OnDisk ignore disk f) {q : FileRow}
    (hq : q ∈ (scanRoot cfg run (walk ignore disk) db).db.files.rows)
    (hkey : fileKeying.key q = pathKey cfg f.relPath) (hread : ¬ ReadAgain cfg.rootId q) :
    q.status = .ok := by
  have hroot : q.rootId = cfg.rootId := congrArg Prod.fst hkey
  obtain ⟨r, hr, p, hp, hcase⟩ := h.final_row hf
  have hqp : q = p := Table.eq_of_key _ hq hp (hkey.trans (final_key hr hcase).symm)
  have hstatus : q.status = r.status := by
    rw [hqp]
    rcases hcase with rfl | ⟨v, hv, rfl⟩ <;> rfl
  have hs := h.swept_status hf hr
  obtain ⟨r', t, hr', -, -, -, hlive⟩ := h.row hf
  rw [hr] at hr'
  cases hr'
  rw [hstatus]
  obtain ⟨w, out, he, hto, heff⟩ := h.effect hf
  cases heff with
  | touched t st p hst hu hp hun hrow =>
    have hst' : f.stat = st := Option.some.inj hst
    rw [offer_key f] at hp
    exact hs.1.mpr (Or.inl ⟨p, hp, hst' ▸ hun⟩)
  | stored t st header i => exact hs.1.mpr (Or.inr ⟨w, t, he⟩)
  | failed t what st i =>
    exact absurd ⟨hroot, hstatus.trans (hs.2.1.mpr ⟨w, t, what, he⟩)⟩ hread
  | dropped hrow => exact absurd rfl hto
  | gone hst hrow => exact absurd rfl hto
  | settling st hst hu hrow => exact absurd rfl hto
  | refused t what hrow => exact absurd rfl hto

/-- A row that is not read again fits its file. -/
theorem FullScan.unchanged_of_not_readAgain (h : FullScan cfg ignore disk run db) {f : DiskFile}
    (hf : OnDisk ignore disk f) {q : FileRow}
    (hq : q ∈ (scanRoot cfg run (walk ignore disk) db).db.files.rows)
    (hkey : fileKeying.key q = pathKey cfg f.relPath) (hread : ¬ ReadAgain cfg.rootId q) :
    unchanged q f.stat = true := by
  obtain ⟨p, hp, hun⟩ := h.known hf
  rw [← hkey, Table.get_of_mem hq] at hp
  cases hp
  exact hun (h.ok_of_not_readAgain hf hq hkey hread)

/-- A row that is not read again keeps all but its stamp. -/
theorem second_sweep_row (h : FullScan cfg ignore disk run db)
    (h' : DiskScan cfg ignore disk run' (scanRoot cfg run (walk ignore disk) db).db) {q : FileRow}
    (hq : q ∈ (scanRoot cfg run (walk ignore disk) db).db.files.rows)
    (hread : ¬ ReadAgain cfg.rootId q) :
    ∃ seen, { q with lastSeenUtc := seen } ∈ (swept cfg run' (walk ignore disk)
      (scanRoot cfg run (walk ignore disk) db).db).db.files.rows := by
  have hget := Table.get_of_mem hq
  by_cases hk : ∃ f, OnDisk ignore disk f ∧ pathKey cfg f.relPath = fileKeying.key q
  · obtain ⟨f, hf, hkey⟩ := hk
    have hok := h.ok_of_not_readAgain hf hq hkey.symm hread
    have hun := h.unchanged_of_not_readAgain hf hq hkey.symm hread
    rw [← hkey] at hget
    obtain ⟨t, ht⟩ := h'.touched_of_unchanged hf hget hun
    have hsame : (touchRow t).apply q = { q with lastSeenUtc := some t } := by
      show { q with lastSeenUtc := some t, status := .ok } = _
      rw [← hok]
    exact ⟨some t, hsame ▸ Table.get_mem ht⟩
  · rw [← h'.unseen fun f hf he => hk ⟨f, hf, he⟩] at hget
    exact ⟨q.lastSeenUtc, Table.get_mem hget⟩

/-- No row comes or goes in the second sweep. -/
theorem second_sweep_ids (h : FullScan cfg ignore disk run db)
    (h' : DiskScan cfg ignore disk run' (scanRoot cfg run (walk ignore disk) db).db) (i : ℕ) :
    i ∈ (swept cfg run' (walk ignore disk)
        (scanRoot cfg run (walk ignore disk) db).db).db.files.ids ↔
      i ∈ (scanRoot cfg run (walk ignore disk) db).db.files.ids := by
  have hkeeps := h'.ends.sound.keeps
  constructor
  · intro hi
    obtain ⟨r, hr, rfl⟩ := Table.mem_ids.mp hi
    have hget := Table.get_of_mem hr
    have hold : ∃ q, (scanRoot cfg run (walk ignore disk) db).db.files.get (fileKeying.key r)
        = some q := by
      by_cases hk : ∃ f, OnDisk ignore disk f ∧ pathKey cfg f.relPath = fileKeying.key r
      · obtain ⟨f, hf, hkey⟩ := hk
        obtain ⟨q, hq, -⟩ := h.known hf
        exact ⟨q, hkey ▸ hq⟩
      · rw [h'.unseen fun f hf he => hk ⟨f, hf, he⟩] at hget
        exact ⟨r, hget⟩
    obtain ⟨q, hq⟩ := hold
    obtain ⟨r', hr', hid⟩ := hkeeps _ q hq
    rw [hget] at hr'
    cases hr'
    exact Table.mem_ids.mpr ⟨q, Table.get_mem hq, hid.symm⟩
  · intro hi
    obtain ⟨q, hq, rfl⟩ := Table.mem_ids.mp hi
    obtain ⟨r, hr, hid⟩ := hkeeps _ q (Table.get_of_mem hq)
    exact Table.mem_ids.mpr ⟨r, Table.get_mem hr, hid⟩

/-- **A second scan of the same disk.** -/
theorem second_scan (h : FullScan cfg ignore disk run db)
    (h' : DiskScan cfg ignore disk run' (scanRoot cfg run (walk ignore disk) db).db) :
    SameButStamps cfg.rootId (scanRoot cfg run (walk ignore disk) db).db
        (scanRoot cfg run' (walk ignore disk) (scanRoot cfg run (walk ignore disk) db).db).db ∧
      (scanRoot cfg run' (walk ignore disk)
        (scanRoot cfg run (walk ignore disk) db).db).stats.added = 0 ∧
      (scanRoot cfg run' (walk ignore disk)
        (scanRoot cfg run (walk ignore disk) db).db).moved = 0 ∧
      (scanRoot cfg run' (walk ignore disk)
        (scanRoot cfg run (walk ignore disk) db).db).missing = 0 := by
  rw [h'.ends.scan_of_nothing_vanished (nothing_vanished h h')]
  refine ⟨⟨second_sweep_ids h h', fun q hq hread => second_sweep_row h h' hq hread, ?_⟩, ?_, rfl, rfl⟩
  · intro q hq hread
    exact h'.frames_of_unchanged hq fun f hf hkey =>
      h.unchanged_of_not_readAgain hf hq hkey.symm hread
  · refine added_eq_zero h'.keys_nodup h'.ends.timely fun o ho => ?_
    obtain ⟨f, hf, rfl⟩ := DiskScan.mem_walk.mp ho
    obtain ⟨q, hq, -⟩ := h.known hf
    rw [offer_key, hq]
    rfl

end Again

/-! ### Convergence -/

/-- The rows of the root in `d` are those of the disk that was scanned; on a root that distinguishes
case a folded path is the path itself. -/
structure Converged (cfg : ScanConfig) (ignore : List Str) (disk : List DiskFile) (run : ScanRun W)
    (db d : IndexDb) : Prop where
  live : ∀ p, (∃ q ∈ d.files.rows, q.rootId = cfg.rootId ∧ q.status ≠ .missing ∧
    cfg.fold q.relPath = cfg.fold p) ↔ PathOnDisk cfg ignore disk p
  one : ∀ q ∈ d.files.rows, ∀ q' ∈ d.files.rows, q.rootId = cfg.rootId → q'.rootId = cfg.rootId →
    cfg.fold q.relPath = cfg.fold q'.relPath → q = q'
  status : ∀ f, OnDisk ignore disk f → ∀ q ∈ d.files.rows, q.rootId = cfg.rootId →
    cfg.fold q.relPath = cfg.fold f.relPath →
      (q.status = .ok ↔ Skipped cfg db f ∨ Stored (swept cfg run (walk ignore disk) db) f) ∧
      (q.status = .error ↔ Failed (swept cfg run (walk ignore disk) db) f) ∧
      (q.status = .error → ¬ Skipped cfg db f ∧
        ∃ what, Unstorable (cfg.sweepConfig db) f.offer f.stat what)
  gone : ∀ r ∈ db.files.rows, r.rootId = cfg.rootId → r.status ≠ .missing →
    ¬ PathOnDisk cfg ignore disk r.relPath → ∃ q ∈ d.files.rows, q.id = r.id ∧
      (q = missingRow.apply r ∨ (q.status ≠ .missing ∧ PathOnDisk cfg ignore disk q.relPath))

/-- Stored files could be read. -/
theorem DiskScan.readable_of_stored (h : DiskScan cfg ignore disk run db) {f : DiskFile}
    (hs : Stored (swept cfg run (walk ignore disk) db) f) : ∃ header, f.header = .ok header := by
  obtain ⟨w, t, he⟩ := hs
  cases h.exact.effects _ he with
  | stored t st header i hst hu hh => exact ⟨header, hh⟩

/-- **Convergence.**  After a full scan the index is that of the disk, with the status of each file
that was not skipped saying whether it could be read and stored; a second scan of the same disk
changes nothing but stamps and the rows it reads again. -/
theorem scan_converges (cfg : ScanConfig) (ignore : List Str) (disk : List DiskFile)
    (run run' : ScanRun W) (db : IndexDb) (h : FullScan cfg ignore disk run db)
    (hends : RunsToEnd cfg run' (walk ignore disk) (scanRoot cfg run (walk ignore disk) db).db)
    (hsettled : ∀ f, OnDisk ignore disk f → ∀ w, unsettled
      (cfg.sweepConfig (scanRoot cfg run (walk ignore disk) db).db) (run'.clock w) f.stat = false) :
    Converged cfg ignore disk run db (scanRoot cfg run (walk ignore disk) db).db ∧
      (∀ f, Stored (swept cfg run (walk ignore disk) db) f → ∃ header, f.header = .ok header) ∧
      SameButStamps cfg.rootId (scanRoot cfg run (walk ignore disk) db).db
        (scanRoot cfg run' (walk ignore disk) (scanRoot cfg run (walk ignore disk) db).db).db ∧
      (scanRoot cfg run' (walk ignore disk)
        (scanRoot cfg run (walk ignore disk) db).db).stats.added = 0 ∧
      (scanRoot cfg run' (walk ignore disk)
        (scanRoot cfg run (walk ignore disk) db).db).moved = 0 ∧
      (scanRoot cfg run' (walk ignore disk)
        (scanRoot cfg run (walk ignore disk) db).db).missing = 0 := by
  refine ⟨⟨scan_rows_iff h, ?_, ?_, ?_⟩, fun f hs => h.readable_of_stored hs,
    second_scan h (h.again hends hsettled)⟩
  · exact fun q hq q' hq' hroot hroot' hpath => scan_row_unique h hq hq' hroot hroot' hpath
  · intro f hf q hq hroot hpath
    obtain ⟨hok, herr, -, hwhy⟩ := scan_status h hf hq hroot hpath
    exact ⟨hok, herr, hwhy⟩
  · exact fun r hr hroot hlive hgone => scan_vanished h hr hroot hlive hgone

end Converge

/-! ### A scan of two files -/

section TwoFiles

attribute [local instance] plainHost

theorem fullScan_twoFiles :
    FullScan plainScan [] (rewrittenDisk 0) (oneWorkerRun 6) twoFiles where
  ends := by decide
  paths := by decide
  hashed := by
    have hall : ∀ r ∈ twoFiles.files.rows, r.relPathHash = r.relPath := by decide
    exact fun r hr _ => hall r hr
  apart p q _ _ h := h
  settled := by
    have hall : ∀ f ∈ rewrittenDisk 0,
        unsettled (plainScan.sweepConfig twoFiles) 1000 f.stat = false := by decide
    exact fun f hf _ => hall f hf.1
  stale := by
    have hall : ∀ r ∈ twoFiles.files.rows, r.firstSeenUtc = 5 ∧ r.lastSeenUtc = some 5 := by decide
    intro r hr _
    obtain ⟨hfirst, hlast⟩ := hall r hr
    rw [hfirst, hlast]
    refine ⟨by decide, fun t ht => ?_⟩
    cases ht
    decide
  passes := by decide

/-- Neither file can be read any more, and both rows still say `ok`. -/
theorem unreadable_file_stays_ok :
    FullScan plainScan [] (rewrittenDisk 0) (oneWorkerRun 6) twoFiles ∧
      ∀ f ∈ rewrittenDisk 0, f.header = .error [] ∧
        ∃ q ∈ (scanRoot plainScan (oneWorkerRun 6) (walk [] (rewrittenDisk 0)) twoFiles).db.files.rows,
          q.relPath = f.relPath ∧ q.status = .ok := by
  have hrows : ∀ f ∈ rewrittenDisk 0, ∃ q ∈ (scanRoot plainScan (oneWorkerRun 6)
      (walk [] (rewrittenDisk 0)) twoFiles).db.files.rows,
        q.relPath = f.relPath ∧ q.status = .ok := by decide
  have hheader : ∀ f ∈ rewrittenDisk 0, f.header = .error [] := by
    simp [rewrittenDisk, fileAt]
  exact ⟨fullScan_twoFiles, fun f hf => ⟨hheader f hf, hrows f hf⟩⟩

/-- The first file has a frame. -/
def framedIndex : IndexDb :=
  { twoFiles with
    frames :=
      { rows := [plainFrame 2 1]
        next := 3
        id_lt := by decide
        id_nodup := by decide
        key_nodup := by decide }
    frames_fk := by decide }

/-- The first file is at `c.fits` now, the second is gone, and `d.fits` is new and unreadable. -/
def changedDisk : List DiskFile :=
  [fileAt "c.fits".toList ⟨2880, 0, 0, 1⟩ (.ok plainHeader),
    fileAt "d.fits".toList ⟨2880, 0, 0, 2⟩ (.error [])]

theorem fullScan_changed : FullScan plainScan [] changedDisk (oneWorkerRun 8) framedIndex where
  ends := by decide
  paths := by decide
  hashed := fullScan_twoFiles.hashed
  apart p q _ _ h := h
  settled := by
    have hall : ∀ f ∈ changedDisk,
        unsettled (plainScan.sweepConfig framedIndex) 1000 f.stat = false := by decide
    exact fun f hf _ => hall f hf.1
  stale := fullScan_twoFiles.stale
  passes := by decide

/-- The row of the first file has moved, that of the second is missing, and the new file has a row. -/
theorem scan_converges_changed :
    Converged plainScan [] changedDisk (oneWorkerRun 8) framedIndex
        (scanRoot plainScan (oneWorkerRun 8) (walk [] changedDisk) framedIndex).db ∧
      (scanRoot plainScan (oneWorkerRun 8) (walk [] changedDisk) framedIndex).db.files.rows.map
          (fun r => (r.id, r.relPath, r.status))
        = [(1, "c.fits".toList, .ok), (2, "b.fits".toList, .missing),
          (4, "d.fits".toList, .error)] := by
  have hsettled : ∀ f ∈ changedDisk, unsettled (plainScan.sweepConfig
      (scanRoot plainScan (oneWorkerRun 8) (walk [] changedDisk) framedIndex).db) 1000
        f.stat = false := by decide
  exact ⟨(scan_converges plainScan [] changedDisk (oneWorkerRun 8) (oneWorkerRun 8) framedIndex
    fullScan_changed (by decide) fun f hf _ => hsettled f hf.1).1, by decide⟩

end TwoFiles

end StarBase.Scan
