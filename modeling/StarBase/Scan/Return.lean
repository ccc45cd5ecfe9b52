import StarBase.Scan.DiskScan
import StarBase.Scan.Presence

/-!
# A missing file that comes back

A missing row is found again only through its path: the reconciliation looks for moved files among
the rows that were live before the scan.

* `relinked_of_same_path` — **PROVED**: a file that returns to its path, and is settled, gets its
  row back;
* `relinked_iff` — **PROVED**: exactly then.

The content of the file that returns is that of no other row and of no other file.
-/

namespace StarBase.Scan

open Relational Extract

section Return

variable [Host] {W : Type} [DecidableEq W]

/-- A scan that runs to its end over files of which no two share a path key. -/
structure KeyedScan (cfg : ScanConfig) (run : ScanRun W) (offers : List Offer) (db : IndexDb) :
    Prop where
  ends : RunsToEnd cfg run offers db
  keys : (offers.map (Offer.key (cfg.sweepConfig db))).Nodup

/-- The content of the missing row `r` is on disk again, as the file `o`; no other row has it, no
other file has a frame of it, and storing it meets no error. -/
structure ComesBack (cfg : ScanConfig) (run : ScanRun W) (offers : List Offer) (db : IndexDb)
    (r : FileRow) (o : Offer) (header : RawHeader) : Prop extends KeyedScan cfg run offers db where
  row : r ∈ db.files.rows
  root : r.rootId = cfg.rootId
  missing : r.status = .missing
  indexed : db.contentKey r.id ≠ []
  offered : o ∈ offers
  readable : o.header = .ok header
  content : SameContent db r.id header
  alone : ∀ q ∈ db.files.rows, q.rootId = cfg.rootId →
    db.contentKey q.id = db.contentKey r.id → q = r
  others : ∀ p ∈ offers, p ≠ o → ∀ g, p.header = .ok g →
    ∀ h ∈ g.imageHdus, fingerprint h ∉ db.contentKey r.id
  stores : ∀ e ∈ (swept cfg run offers db).trace, e.offer = o →
    ∀ t what, e.outcome ≠ .failed t what

/-- In `d` the row `r` is live again at the path of `o`, with its frames and what is associated
with them, and no other row has its content. -/
structure Relinked (rootId : ℕ) (db d : IndexDb) (r : FileRow) (o : Offer) : Prop where
  row : ∃ q ∈ d.files.rows, q.id = r.id ∧ q.status = .ok ∧ q.relPath = o.relPath
  frames : ∀ hdu f, db.frames.get (r.id, hdu) = some f → ∃ f', d.frames.get (r.id, hdu) = some f' ∧
    f'.id = f.id ∧ f'.flatSetId = f.flatSetId
  tags : ∀ hdu f, db.frames.get (r.id, hdu) = some f →
    ∀ t, (f.id, t) ∈ d.frameTags ↔ (f.id, t) ∈ db.frameTags
  collections : ∀ hdu f, db.frames.get (r.id, hdu) = some f →
    ∀ c, (c, f.id) ∈ d.collectionFrames ↔ (c, f.id) ∈ db.collectionFrames
  only : ∀ q ∈ d.files.rows, q.rootId = rootId → d.contentKey q.id = db.contentKey r.id → q.id = r.id

/-- A worker found the file settled. -/
def TakenSettled (cfg : ScanConfig) (run : ScanRun W) (offers : List Offer) (db : IndexDb)
    (o : Offer) : Prop :=
  ∃ e ∈ (swept cfg run offers db).trace, e.offer = o ∧
    o.settled (cfg.sweepConfig db) (run.clock e.worker) = true

variable {cfg : ScanConfig} {run : ScanRun W} {offers : List Offer} {db : IndexDb}

theorem KeyedScan.exact (h : KeyedScan cfg run offers db) :
    Exact (cfg.sweepConfig db) run.clock db (swept cfg run offers db) :=
  exact_sweep h.keys h.ends.timely

/-- The frames of a row that vanished are as they were. -/
theorem KeyedScan.frames_of_vanished (h : KeyedScan cfg run offers db) {v : FileRow}
    (hv : v ∈ vanishedRows (swept cfg run offers db).db cfg.rootId run.scanStart) :
    FramesKept v.id db (swept cfg run offers db).db := by
  refine h.exact.frames v.id fun hi => ?_
  obtain ⟨e, he, t, r, hout, hr, hid⟩ := hi
  have hvrow := mem_vanishedRows.mp hv
  have hrv : r = v := Table.eq_of_id _ (Table.get_mem hr) hvrow.1 hid
  obtain ⟨q, t', hq, hlast, hss, -⟩ := h.ends.sound.stamped e he (by rw [hout]; simp [Outcome.time])
  rw [hr] at hq
  cases hq
  rw [hrv] at hlast
  simp [seenSince, hlast, hss] at hvrow

/-- The entry of a file in the trace of a complete sweep, and its effect. -/
theorem KeyedScan.entry (h : KeyedScan cfg run offers db) {o : Offer} (ho : o ∈ offers) :
    ∃ w out, ⟨w, o, out⟩ ∈ (swept cfg run offers db).trace ∧
      Effect (cfg.sweepConfig db) (run.clock w) db (swept cfg run offers db).db o out := by
  obtain ⟨⟨w, p, out⟩, he, hp⟩ := (h.ends.complete.taken h.ends.conserved).mp ho
  dsimp only at hp
  subst hp
  exact ⟨w, out, he, h.exact.effects _ he⟩

variable {r : FileRow} {o : Offer} {header : RawHeader}

/-! ### Back at its path -/

/-- The file's row and frames after the sweep. -/
theorem ComesBack.stored (h : ComesBack cfg run offers db r o header)
    (hkey : o.key (cfg.sweepConfig db) = fileKeying.key r)
    (hset : TakenSettled cfg run offers db o) :
    ∃ q, (swept cfg run offers db).db.files.get (fileKeying.key r) = some q ∧ q.id = r.id ∧
      q.status = .ok ∧ q.relPath = o.relPath ∧
      FileStored (cfg.sweepConfig db).store header.imageHdus r.id db
        (swept cfg run offers db).db := by
  obtain ⟨e, he, ho, hsettled⟩ := hset
  have hto : e.outcome.time ≠ none :=
    (h.ends.complete.timed_iff h.ends.sound he).mpr (ho ▸ hsettled)
  have hget : db.files.get (o.key (cfg.sweepConfig db)) = some r := by
    rw [hkey]
    exact Table.get_of_mem h.row
  have hstores := h.stores e he ho
  have heff := h.toKeyedScan.exact.effects e he
  obtain ⟨w, p, out⟩ := e
  dsimp only at ho hto heff hstores
  subst ho
  cases heff with
  | touched t st q hst hu hq hun hrow =>
    rw [hget] at hq
    cases hq
    simp [unchanged, h.missing] at hun
  | stored t st g i hst hu hh hun hi hrow hfs =>
    rw [h.readable] at hh
    cases hh
    rw [hget] at hrow hfs
    rw [hkey] at hrow
    exact ⟨_, hrow, rfl, rfl, rfl, hfs⟩
  | failed t what => exact absurd rfl (hstores t what)
  | dropped hrow => exact absurd rfl hto
  | gone hst hrow => exact absurd rfl hto
  | settling st hst hu hrow => exact absurd rfl hto
  | refused t what hrow => exact absurd rfl hto

/-- The stored row is not taken for another file's. -/
theorem ComesBack.not_target (h : ComesBack cfg run offers db r o header) {q : FileRow}
    (hq : q.id = r.id) (hfs : FileStored (cfg.sweepConfig db).store header.imageHdus r.id db
      (swept cfg run offers db).db) (v : FileRow) :
    ¬ Moved (swept cfg run offers db).db cfg.rootId run.scanStart v q := by
  intro hm
  have hvold := (h.ends.old_of_vanished hm.vanished).1
  have hvlive := mem_vanishedRows.mp hm.vanished
  have hkey : db.contentKey v.id = db.contentKey r.id := by
    calc db.contentKey v.id = (swept cfg run offers db).db.contentKey v.id :=
          (h.toKeyedScan.frames_of_vanished hm.vanished).contentKey.symm
      _ = (swept cfg run offers db).db.contentKey r.id := by rw [← hm.same, hq]
      _ = db.contentKey r.id := contentKey_of_header (hfs.same h.content) h.content
  have hvr := h.alone v hvold hvlive.2.1 hkey
  rw [hvr] at hvlive
  exact hvlive.2.2.1 h.missing

/-- No other row of the root has the content after the sweep. -/
theorem ComesBack.only (h : ComesBack cfg run offers db r o header)
    (hkey : o.key (cfg.sweepConfig db) = fileKeying.key r) {q : FileRow}
    (hq : q ∈ (swept cfg run offers db).db.files.rows) (hroot : q.rootId = cfg.rootId)
    (hcontent : (swept cfg run offers db).db.contentKey q.id = db.contentKey r.id) :
    q.id = r.id := by
  -- The content of a row of the old index is not that of `r`, and a new row had no frames.
  have hold : db.contentKey q.id = db.contentKey r.id → q.id = r.id := by
    intro he
    by_cases hid : q.id ∈ db.files.ids
    · obtain ⟨p, hp, hpid⟩ := Table.mem_ids.mp hid
      have hpid' : p.id = q.id := hpid
      obtain ⟨q', hq', hqid⟩ := h.ends.sound.keeps _ p (Table.get_of_mem hp)
      have hqq : q' = q := Table.eq_of_id _ (Table.get_mem hq') hq (hqid.trans hpid')
      have hproot : p.rootId = cfg.rootId := by
        rw [← hroot, ← hqq]
        exact (congrArg Prod.fst (Table.get_key hq')).symm
      rw [← hpid'] at he ⊢
      rw [h.alone p hp hproot he]
    · have hnil : db.contentKey q.id = [] := contentKey_eq_nil_iff.mpr (frames_get_of_no_file hid)
      exact absurd (he.symm.trans hnil) h.indexed
  by_cases hi : StoredId (cfg.sweepConfig db) (swept cfg run offers db) q.id
  · obtain ⟨⟨w, p, out⟩, he, t, q', hout, hq', hqid⟩ := hi
    dsimp only at hout hq'
    subst hout
    have hp : p ∈ offers := (h.ends.complete.taken h.ends.conserved).mpr ⟨_, he, rfl⟩
    by_cases hpo : p = o
    · rw [hpo, hkey] at hq'
      obtain ⟨q'', hq'', hid⟩ := h.ends.sound.keeps _ r (Table.get_of_mem h.row)
      rw [hq'] at hq''
      cases hq''
      exact hqid.symm.trans hid
    · cases h.toKeyedScan.exact.effects _ he with
      | stored t st g i hst hu hh hun hi hrow hfs =>
        dsimp only at hh hrow hfs
        rw [hq'] at hrow
        have hid := Option.some.inj hrow
        rw [← hid, hqid] at hfs
        by_cases hg : ∃ x, x ∈ g.imageHdus
        · obtain ⟨x, hx⟩ := hg
          refine absurd (hcontent ▸ mem_contentKey.mpr ⟨x.index, ?_⟩) (h.others p hp hpo g hh x hx)
          rw [hfs.fingerprintAt]
          have hfind : g.fingerprintAt x.index = some (fingerprint x) := by
            unfold RawHeader.fingerprintAt
            rw [find_hdu_eq_some_iff.mpr ⟨hx, rfl⟩]
            rfl
          rw [hfind]
          rfl
        · refine hold (hcontent ▸ contentKey_congr fun hdu => ?_)
          unfold IndexDb.fingerprintAt
          rw [hfs.kept hdu fun x hx => absurd ⟨x, hx⟩ hg]
  · exact hold ((h.toKeyedScan.exact.frames q.id hi).contentKey ▸ hcontent)

/-- **A missing file that comes back to its path** gets its row back. -/
theorem relinked_of_same_path (h : ComesBack cfg run offers db r o header)
    (hkey : o.key (cfg.sweepConfig db) = fileKeying.key r)
    (hset : TakenSettled cfg run offers db o) :
    Relinked cfg.rootId db (scanRoot cfg run offers db).db r o := by
  obtain ⟨q, hq, hid, hok, hpath, hfs⟩ := h.stored hkey hset
  have hqrow := Table.get_mem hq
  have hv : q ∉ vanishedRows (swept cfg run offers db).db cfg.rootId run.scanStart := by
    intro hv
    obtain ⟨e, he, ho, hs⟩ := hset
    refine (h.ends.old_of_vanished hv).2 ⟨e, he, ?_, ho ▸ hs⟩
    rw [ho, hkey, ← Table.get_key hq]
  have hfinal := h.ends.row_stays hqrow hv (h.not_target hid hfs)
  have hkept : FramesKept r.id (swept cfg run offers db).db (scanRoot cfg run offers db).db :=
    h.ends.survives.framesKept (Table.mem_ids.mpr ⟨q, hfinal, hid⟩)
  have hframe : ∀ hdu f, db.frames.get (r.id, hdu) = some f →
      ∃ f', (scanRoot cfg run offers db).db.frames.get (r.id, hdu) = some f' ∧
        f'.id = f.id ∧ f'.flatSetId = f.flatSetId := by
    intro hdu f hf
    rw [hkept.frames]
    exact hfs.frame_id hf
  have hmem : ∀ hdu f, db.frames.get (r.id, hdu) = some f →
      f.id ∈ (scanRoot cfg run offers db).db.frames.ids := by
    intro hdu f hf
    obtain ⟨f', hf', hid', -⟩ := hframe hdu f hf
    exact Table.mem_ids.mpr ⟨f', Table.get_mem hf', hid'⟩
  refine ⟨⟨q, hfinal, hid, hok, hpath⟩, hframe, ?_, ?_, ?_⟩
  · intro hdu f hf t
    rw [h.ends.survives.tags (f.id, t) (hmem hdu f hf), h.ends.sound.operator.frameTags]
  · intro hdu f hf c
    rw [h.ends.survives.collections (c, f.id) (hmem hdu f hf),
      h.ends.sound.operator.collectionFrames]
  · intro p hp hroot hcontent
    obtain ⟨p', hp', hpid, hcase⟩ := h.ends.row_of_scan hp
    have hids : p.id ∈ (scanRoot cfg run offers db).db.files.ids := Table.id_mem_ids hp
    rw [(h.ends.survives.framesKept hids).contentKey, ← hpid] at hcontent
    have hroot' : p'.rootId = cfg.rootId := by
      rcases hcase with rfl | hv'
      · exact hroot
      · exact (mem_vanishedRows.mp hv').2.1
    exact hpid.symm.trans (h.only hkey hp' hroot' hcontent)

/-- **Missing files that come back**: the row is found again exactly if the file is at its path and
a worker found it settled. -/
theorem relinked_iff (cfg : ScanConfig) (run : ScanRun W) (offers : List Offer) (db : IndexDb)
    (r : FileRow) (o : Offer) (header : RawHeader) (h : ComesBack cfg run offers db r o header) :
    Relinked cfg.rootId db (scanRoot cfg run offers db).db r o ↔
      o.key (cfg.sweepConfig db) = fileKeying.key r ∧ TakenSettled cfg run offers db o := by
  constructor
  · intro hrel
    obtain ⟨q, hq, hid, hok, hpath⟩ := hrel.row
    obtain ⟨p, hp, hpid, hcase⟩ := h.ends.row_of_scan hq
    obtain ⟨p', hp', hpid'⟩ := h.ends.sound.keeps _ r (Table.get_of_mem h.row)
    have hpp : p' = p := Table.eq_of_id _ (Table.get_mem hp') hp (hpid'.trans (hid.symm.trans hpid.symm))
    rw [hpp] at hp'
    -- The row vanished neither way: it was missing, or it was seen.
    have hqp : q = p := by
      rcases hcase with hqp | hv
      · exact hqp
      · have hold := (h.ends.old_of_vanished hv).1
        have hpr : p = r := db.files.eq_of_id hold h.row (hpid.trans hid)
        have hlive := (mem_vanishedRows.mp hv).2.2.1
        rw [hpr] at hlive
        exact absurd h.missing hlive
    rw [hqp] at hok hpath
    by_cases hset : SettledAt (cfg.sweepConfig db) run.clock (swept cfg run offers db).trace
        (fileKeying.key r)
    · obtain ⟨⟨w, o', out⟩, he, hk, hs⟩ := hset
      dsimp only at hk hs
      have hto := (h.ends.complete.timed_iff h.ends.sound he).mpr hs
      have hrget := Table.get_of_mem h.row
      rw [← hk] at hp' hrget
      cases h.toKeyedScan.exact.effects _ he with
      | touched t st q' hst hu hq' hun hrow =>
        rw [hrget] at hq'
        cases hq'
        simp [unchanged, h.missing] at hun
      | stored t st g i hst hu hh hun hi hrow hfs =>
        dsimp only at hrow
        rw [hrget, hp'] at hrow
        cases hrow
        have hpath' : o'.relPath = o.relPath := hpath
        have hkeys : o'.key (cfg.sweepConfig db) = o.key (cfg.sweepConfig db) := by
          unfold Offer.key
          rw [hpath']
        have hoo : o' = o := List.inj_on_of_nodup_map h.keys
          ((h.ends.complete.taken h.ends.conserved).mpr ⟨_, he, rfl⟩) h.offered hkeys
        exact ⟨hkeys.symm.trans hk, ⟨w, o', _⟩, he, hoo, hoo ▸ hs⟩
      | failed t what st i hst hu hw hun hi hrow =>
        dsimp only at hrow
        rw [hrget, hp'] at hrow
        cases hrow
        cases hok
      | dropped hrow => exact absurd rfl hto
      | gone hst hrow => exact absurd rfl hto
      | settling st hst hu hrow => exact absurd rfl hto
      | refused t what hrow => exact absurd rfl hto
    · rw [h.ends.complete.untouched h.ends.sound hset, Table.get_of_mem h.row] at hp'
      cases hp'
      rw [h.missing] at hok
      cases hok
  · intro hcond
    exact relinked_of_same_path h hcond.1 hcond.2

end Return

/-! ### One file that went missing -/

section Back

attribute [local instance] plainHost

/-- An index in which the first of two files is missing. -/
def goneFile : IndexDb :=
  { IndexDb.blank {} with
    files :=
      { rows := [{ indexedRow 1 "a.fits" 5 with status := .missing }, indexedRow 2 "b.fits" 5]
        next := 3
        id_lt := by decide
        id_nodup := by decide
        key_nodup := by decide }
    frames :=
      { rows := [plainFrame 1 1]
        next := 2
        id_lt := by decide
        id_nodup := by decide
        key_nodup := by decide }
    frames_fk := by decide }

def goneRow : FileRow := { indexedRow 1 "a.fits" 5 with status := .missing }

/-- The content of the missing row. -/
def backFile (path : String) : DiskFile := fileAt path.toList ⟨2880, 0, 0, 1⟩ (.ok plainHeader)

/-- It is back, at the given path, next to the file that stayed. -/
def backDisk (path : String) : List DiskFile :=
  [backFile path, fileAt "b.fits".toList ⟨2880, 0, 0, 1⟩ (.error [])]

theorem comesBack_of_path (path : String) (hends : RunsToEnd plainScan (oneWorkerRun 6)
      (walk [] (backDisk path)) goneFile)
    (hkeys : ((walk [] (backDisk path)).map (Offer.key (plainScan.sweepConfig goneFile))).Nodup)
    (hwalk : walk [] (backDisk path) = (backDisk path).map DiskFile.offer)
    (hout : (swept plainScan (oneWorkerRun 6) (walk [] (backDisk path)) goneFile).trace.map
      Entry.outcome = [.stored 10, .touched 10]) :
    ComesBack plainScan (oneWorkerRun 6) (walk [] (backDisk path)) goneFile goneRow
      (backFile path).offer plainHeader where
  ends := hends
  keys := hkeys
  row := by decide
  root := rfl
  missing := rfl
  indexed := by decide
  offered := by
    rw [hwalk]
    exact List.mem_map_of_mem List.mem_cons_self
  readable := rfl
  content := by decide
  alone := by decide
  others p hp hne g hg := by
    rw [hwalk] at hp
    simp only [backDisk, List.map_cons, List.map_nil, List.mem_cons, List.not_mem_nil,
      or_false] at hp
    rcases hp with rfl | rfl
    · exact absurd rfl hne
    · cases hg
  stores e he _ t what ho := by
    have hmem := List.mem_map_of_mem (f := Entry.outcome) he
    rw [hout, ho] at hmem
    simp at hmem

/-- Back at its path, the file has its row. -/
theorem relinked_one : Relinked 1 goneFile
    (scanRoot plainScan (oneWorkerRun 6) (walk [] (backDisk "a.fits")) goneFile).db goneRow
    (backFile "a.fits").offer := by
  refine (relinked_iff plainScan (oneWorkerRun 6) (walk [] (backDisk "a.fits")) goneFile goneRow
    (backFile "a.fits").offer plainHeader
    (comesBack_of_path "a.fits" (by decide) (by decide) rfl (by decide))).mpr ⟨by decide, ?_⟩
  have htaken : ∃ e ∈ (swept plainScan (oneWorkerRun 6) (walk [] (backDisk "a.fits"))
      goneFile).trace.head?, e.offer = (backFile "a.fits").offer := ⟨_, rfl, rfl⟩
  have hclock : ∀ w, (oneWorkerRun 6).clock w = 1000 := fun _ => rfl
  obtain ⟨e, he, ho⟩ := htaken
  refine ⟨e, List.mem_of_mem_head? he, ho, ?_⟩
  rw [hclock]
  decide

/-- Back at a new path, the file gets a second row and its old row stays missing. -/
theorem not_relinked_elsewhere :
    ComesBack plainScan (oneWorkerRun 6) (walk [] (backDisk "c.fits")) goneFile goneRow
        (backFile "c.fits").offer plainHeader ∧
      ¬ Relinked 1 goneFile
        (scanRoot plainScan (oneWorkerRun 6) (walk [] (backDisk "c.fits")) goneFile).db goneRow
        (backFile "c.fits").offer := by
  refine ⟨comesBack_of_path "c.fits" (by decide) (by decide) rfl (by decide), fun h => ?_⟩
  have hrows : ∀ q ∈ (scanRoot plainScan (oneWorkerRun 6) (walk [] (backDisk "c.fits"))
      goneFile).db.files.rows, q.id = goneRow.id → q.status ≠ .ok := by decide
  obtain ⟨q, hq, hid, hok, -⟩ := h.row
  exact hrows q hq hid hok

end Back

end StarBase.Scan
