import StarBase.Scan.ScanRoot

/-!
# Files that are there and rows that say they are missing

A worker that meets a file still being written leaves the file's row alone, and to the
reconciliation a row without a stamp is a file that is gone.

* `scan_rows_of_settled` — **PROVED**: the row of a file that was settled is not missing after the
  scan;
* `presentKept_iff` — **PROVED**: the scans after which no present file is missing, exactly.
-/

namespace StarBase.Scan

open Relational Extract

section Presence

variable [Host] {W : Type}

/-- `POST /db/prune-missing`: delete the missing rows, or those not seen since a cutoff. -/
def pruneMissing (cutoff : Option Micros) (db : IndexDb) : IndexDb :=
  db.deleteFiles fun r => r.status = .missing &&
    cutoff.all fun c => r.lastSeenUtc.any fun t => decide (t < c)

/-- No row of the root whose path is on disk is missing, and pruning deletes none of them. -/
structure PresentKept (rootId : ℕ) (onDisk : Str → Prop) (db : IndexDb) : Prop where
  notMissing : ∀ r ∈ db.files.rows, r.rootId = rootId → onDisk r.relPath → r.status ≠ .missing
  pruned : ∀ cutoff, ∀ r ∈ db.files.rows, r.rootId = rootId → onDisk r.relPath →
    r ∈ (pruneMissing cutoff db).files.rows

theorem presentKept_iff_notMissing {rootId : ℕ} {onDisk : Str → Prop} {db : IndexDb} :
    PresentKept rootId onDisk db ↔
      ∀ r ∈ db.files.rows, r.rootId = rootId → onDisk r.relPath → r.status ≠ .missing := by
  constructor
  · intro h
    exact h.notMissing
  · intro h
    refine ⟨h, fun cutoff r hr hroot hdisk => ?_⟩
    show r ∈ (db.files.deleteWhere _).rows
    rw [Table.mem_deleteWhere]
    exact ⟨hr, by simp [h r hr hroot hdisk]⟩

variable [DecidableEq W]

/-- A row whose file was not settled stays off `missing` when it was not missing before and the
reconciliation is held back by the guard, takes the row for seen, or moves it. -/
def SparedUnseen (cfg : ScanConfig) (run : ScanRun W) (offers : List Offer) (db : IndexDb)
    (r : FileRow) : Prop :=
  r.status ≠ .missing ∧ (guarded cfg run offers db = true ∨ seenSince run.scanStart r = true ∨
    ∃ a, Moved (swept cfg run offers db).db cfg.rootId run.scanStart r a)

/-- Every row whose path is on disk has a file that a worker found settled, or is spared. -/
def SeenOrSpared (cfg : ScanConfig) (run : ScanRun W) (offers : List Offer) (db : IndexDb)
    (onDisk : Str → Prop) : Prop :=
  ∀ r ∈ db.files.rows, r.rootId = cfg.rootId → onDisk r.relPath →
    SettledAt (cfg.sweepConfig db) run.clock (swept cfg run offers db).trace (fileKeying.key r) ∨
      SparedUnseen cfg run offers db r

variable {cfg : ScanConfig} {run : ScanRun W} {offers : List Offer} {db : IndexDb}

/-- A row that is missing after the scan was so before, or vanished and was not moved; either way
no settled file was found for it. -/
theorem missing_of_scan (h : RunsToEnd cfg run offers db) {q : FileRow}
    (hq : q ∈ (scanRoot cfg run offers db).db.files.rows) (hmiss : q.status = .missing)
    (hroot : q.rootId = cfg.rootId) :
    ∃ r ∈ db.files.rows, r.rootId = cfg.rootId ∧ r.relPath = q.relPath ∧
      ¬ SettledAt (cfg.sweepConfig db) run.clock (swept cfg run offers db).trace
        (fileKeying.key r) ∧ ¬ SparedUnseen cfg run offers db r := by
  have hsound := h.sound
  -- A missing row that the sweep left is an old one that it did not see.
  have hunseen : ∀ r ∈ (swept cfg run offers db).db.files.rows,
      r.status = .missing ∨ r ∈ vanishedRows (swept cfg run offers db).db cfg.rootId run.scanStart →
      ¬ SettledAt (cfg.sweepConfig db) run.clock (swept cfg run offers db).trace
        (fileKeying.key r) := by
    intro r hr hcase hset
    obtain ⟨p, t, hp, hseen, hss, hstatus⟩ := h.complete.stamped hsound hset
    have hpr : p = r := by
      rw [Table.get_of_mem hr] at hp
      exact (Option.some.inj hp).symm
    rw [hpr] at hseen hstatus
    rcases hcase with hcase | hcase
    · exact hstatus hcase
    · have := (mem_vanishedRows.mp hcase).2.2.2
      simp [seenSince, hseen, hss] at this
  have hold : ∀ r ∈ (swept cfg run offers db).db.files.rows,
      ¬ SettledAt (cfg.sweepConfig db) run.clock (swept cfg run offers db).trace
        (fileKeying.key r) → r ∈ db.files.rows := by
    intro r hr hset
    have hget := h.complete.untouched hsound hset
    rw [Table.get_of_mem hr] at hget
    exact Table.get_mem hget.symm
  cases hg : guarded cfg run offers db with
  | true =>
    rw [scan_db_of_guarded h hg] at hq
    have hset := hunseen q hq (Or.inl hmiss)
    exact ⟨q, hold q hq hset, hroot, rfl, hset, fun hs => hs.1 hmiss⟩
  | false =>
    obtain ⟨r, hr, -, hb⟩ := ((scan_reconciled h hg).rows q).mp hq
    cases hb with
    | kept =>
      have hset := hunseen q hr (Or.inl hmiss)
      exact ⟨q, hold q hr hset, hroot, rfl, hset, fun hs => hs.1 hmiss⟩
    | moved a hm =>
      have hset := hunseen a (mem_appearedRows.mp hm.appeared).1 (Or.inl hmiss)
      have harow := hold a (mem_appearedRows.mp hm.appeared).1 hset
      exact ⟨a, harow, (mem_appearedRows.mp hm.appeared).2.1, rfl, hset, fun hs => hs.1 hmiss⟩
    | missing hv hn =>
      have hset := hunseen r hr (Or.inr hv)
      have hv' := mem_vanishedRows.mp hv
      refine ⟨r, hold r hr hset, hv'.2.1, rfl, hset, fun hs => ?_⟩
      rcases hs.2 with hgt | hseen | ⟨a, ha⟩
      · rw [hg] at hgt
        cases hgt
      · rw [hv'.2.2.2] at hseen
        cases hseen
      · exact hn a ha

/-- A row that no settled file was found for and that nothing spares leaves its path to a missing
row. -/
theorem scan_marks_missing (h : RunsToEnd cfg run offers db) {r : FileRow}
    (hr : r ∈ db.files.rows) (hroot : r.rootId = cfg.rootId)
    (hset : ¬ SettledAt (cfg.sweepConfig db) run.clock (swept cfg run offers db).trace
      (fileKeying.key r)) (hspared : ¬ SparedUnseen cfg run offers db r) :
    ∃ q ∈ (scanRoot cfg run offers db).db.files.rows, q.rootId = cfg.rootId ∧
      q.relPath = r.relPath ∧ q.status = .missing := by
  have hget := h.complete.untouched h.sound hset
  rw [Table.get_of_mem hr] at hget
  have hrs := Table.get_mem hget
  cases hg : guarded cfg run offers db with
  | true =>
    have hmiss : r.status = .missing := by
      by_contra hne
      exact hspared ⟨hne, Or.inl hg⟩
    rw [scan_db_of_guarded h hg]
    exact ⟨r, hrs, hroot, rfl, hmiss⟩
  | false =>
    have hrec := scan_reconciled h hg
    by_cases hmiss : r.status = .missing
    · have hnv : r ∉ vanishedRows (swept cfg run offers db).db cfg.rootId run.scanStart :=
        fun hv => (mem_vanishedRows.mp hv).2.2.1 hmiss
      by_cases hfirst : ∃ v, Moved (swept cfg run offers db).db cfg.rootId run.scanStart v r
      · -- Another row takes the path over, with the status found there.
        obtain ⟨v, hv⟩ := hfirst
        have hvrow := mem_vanishedRows.mp hv.vanished
        have hfree : ∀ u, ¬ Moved (swept cfg run offers db).db cfg.rootId run.scanStart u v := by
          intro u hu
          have huv : v = u := hu.eq_of_vanished hv.vanished
          rw [← huv] at hu
          exact hnv (hu.target_unique hv ▸ hv.vanished)
        exact ⟨_, (hrec.rows _).mpr ⟨v, hvrow.1, hfree, .moved r hv⟩, hvrow.2.1, rfl, hmiss⟩
      · have hfree : ∀ v, ¬ Moved (swept cfg run offers db).db cfg.rootId run.scanStart v r :=
          fun v hv => hfirst ⟨v, hv⟩
        exact ⟨r, (hrec.rows r).mpr ⟨r, hrs, hfree, .kept hnv⟩, hroot, rfl, hmiss⟩
    · have hseen : seenSince run.scanStart r = false := by
        cases hs : seenSince run.scanStart r with
        | false => rfl
        | true => exact absurd ⟨hmiss, Or.inr (Or.inl hs)⟩ hspared
      have hv : r ∈ vanishedRows (swept cfg run offers db).db cfg.rootId run.scanStart :=
        mem_vanishedRows.mpr ⟨hrs, hroot, hmiss, hseen⟩
      have hn : ∀ a, ¬ Moved (swept cfg run offers db).db cfg.rootId run.scanStart r a :=
        fun a ha => hspared ⟨hmiss, Or.inr (Or.inr ⟨a, ha⟩)⟩
      have hfree : ∀ v, ¬ Moved (swept cfg run offers db).db cfg.rootId run.scanStart v r := by
        intro v hvr
        have hrv : r = v := hvr.eq_of_vanished hv
        exact hn r (hrv ▸ hvr)
      exact ⟨missingRow.apply r, (hrec.rows _).mpr ⟨r, hrs, hfree, .missing hv hn⟩, hroot, rfl, rfl⟩

/-- **Present files.**  A scan leaves no present file missing exactly if a worker finds a settled
file for every row whose path is on disk, or the row is spared. -/
theorem presentKept_iff (cfg : ScanConfig) (run : ScanRun W) (offers : List Offer) (db : IndexDb)
    (onDisk : Str → Prop) (h : RunsToEnd cfg run offers db) :
    PresentKept cfg.rootId onDisk (scanRoot cfg run offers db).db ↔
      SeenOrSpared cfg run offers db onDisk := by
  rw [presentKept_iff_notMissing]
  constructor
  · intro hkept r hr hroot hdisk
    by_contra hcon
    rw [not_or] at hcon
    obtain ⟨q, hq, hqroot, hpath, hmiss⟩ := scan_marks_missing h hr hroot hcon.1 hcon.2
    exact hkept q hq hqroot (hpath ▸ hdisk) hmiss
  · intro hseen q hq hqroot hdisk hmiss
    obtain ⟨r, hr, hroot, hpath, hset, hspared⟩ := missing_of_scan h hq hmiss hqroot
    rcases hseen r hr hroot (hpath ▸ hdisk) with hs | hs
    · exact hset hs
    · exact hspared hs

end Presence

/-! ### A file that is written again -/

section Rewritten

attribute [local instance] plainHost

/-- An indexed file of the root 1. -/
def indexedRow (id : ℕ) (path : String) (seen : Micros) : FileRow where
  id := id
  rootId := 1
  relPath := path.toList
  relPathHash := path.toList
  filename := path.toList
  ext := some ".fits".toList
  format := .fits
  bucket := .other
  sizeBytes := some 2880
  mtimeUtc := some 0
  inode := some 1
  status := .ok
  error := none
  firstSeenUtc := seen
  lastSeenUtc := some seen
  lastIndexedUtc := some seen

/-- An image HDU without a single card. -/
def plainHdu : Hdu := ⟨0, true, 16, 2, 10, 10, []⟩

def plainHeader : RawHeader := ⟨[plainHdu], by decide⟩

/-- The frame of a file with that header. -/
def plainFrame (id fileId : ℕ) : FrameRow where
  id := id
  fileId := fileId
  hdu := 0
  fingerprint := fingerprint plainHdu
  cols := {}
  equip := {}
  quarantineReason := some "no-dateobs".toList
  flatSetId := none

/-- An index of two files, last seen at 5. -/
def twoFiles : IndexDb :=
  { IndexDb.blank {} with
    files :=
      { rows := [indexedRow 1 "a.fits" 5, indexedRow 2 "b.fits" 5]
        next := 3
        id_lt := by decide
        id_nodup := by decide
        key_nodup := by decide }
    frames_fk := by simp [IndexDb.blank, Table.empty] }

def plainScan : ScanConfig where
  rootId := 1
  mapping := ⟨[], []⟩

/-- The first file was written at the second `mtime`, the second file is as it was. -/
def rewrittenDisk (mtime : Int) : List DiskFile :=
  [fileAt "a.fits".toList ⟨2880, mtime, 0, 1⟩ (.error []),
    fileAt "b.fits".toList ⟨2880, 0, 0, 1⟩ (.error [])]

/-- One worker, whose clock shows the second 1000, takes `steps` steps. -/
def oneWorkerRun (steps : ℕ) : ScanRun Unit where
  clock _ := 1000
  scanStart := 10
  events := List.replicate steps (.work () 10)
  order := ⟨id, fun _ => List.Perm.refl _⟩
  moment _ := 20

/-- Had it not been written again, both rows would stay. -/
theorem presentKept_two :
    PresentKept 1 (fun p => p ∈ (rewrittenDisk 0).map DiskFile.relPath)
      (scanRoot plainScan (oneWorkerRun 6) (walk [] (rewrittenDisk 0)) twoFiles).db := by
  refine (presentKept_iff plainScan (oneWorkerRun 6) (walk [] (rewrittenDisk 0)) twoFiles _
    (by decide)).mpr ?_
  have hsettled : ∀ r ∈ twoFiles.files.rows,
      ∃ e ∈ (swept plainScan (oneWorkerRun 6) (walk [] (rewrittenDisk 0)) twoFiles).trace,
        e.offer.key (plainScan.sweepConfig twoFiles) = fileKeying.key r ∧
          e.offer.settled (plainScan.sweepConfig twoFiles) 1000 = true := by decide
  exact fun r hr _ _ => Or.inl (hsettled r hr)

/-- Both files are on disk throughout; the first was written five seconds before the scan. -/
theorem rewritten_file_reported_missing :
    RunsToEnd plainScan (oneWorkerRun 5) (walk [] (rewrittenDisk 995)) twoFiles ∧
      ¬ PresentKept 1 (fun p => p ∈ (rewrittenDisk 995).map DiskFile.relPath)
        (scanRoot plainScan (oneWorkerRun 5) (walk [] (rewrittenDisk 995)) twoFiles).db := by
  refine ⟨by decide, fun h => ?_⟩
  have hrow : ∃ r ∈ (scanRoot plainScan (oneWorkerRun 5) (walk [] (rewrittenDisk 995))
      twoFiles).db.files.rows, r.rootId = 1 ∧ r.relPath ∈ (rewrittenDisk 995).map DiskFile.relPath ∧
        r.status = .missing := by decide
  obtain ⟨r, hr, hroot, hdisk, hmiss⟩ := hrow
  exact h.notMissing r hr hroot hdisk hmiss

end Rewritten

end StarBase.Scan
