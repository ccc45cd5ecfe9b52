import StarBase.Scan.Converge
import StarBase.Scan.Return

/-!
# Frames that follow their files

The files of a root are renamed between two scans.  A file at a path without a row is found by the
reconciliation; a file at a path that has one, live or missing, is stored over that row.

* `Renaming.passes` — **PROVED**: the mount guard lets the scan reconcile;
* `follows_of_free` — **PROVED**: a file renamed to a path without a row takes its row, frames and
  associations along;
* `framesFollow_iff` — **PROVED**: every frame follows exactly if no file was renamed to a path
  that has a row.
-/

namespace StarBase.Scan

open Relational Extract

section Follow

variable [Host] {W : Type} [DecidableEq W]

/-- The file under its new path. -/
def renameFile (σ : Str → Str) (f : DiskFile) : DiskFile :=
  { f with path := σ f.path, relPath := σ f.relPath }

/-- The index agrees with the files `old`: each has a row that fits it and its frames, at least one,
there is no other live row, and no two live rows have the same content key. -/
structure Agrees (cfg : ScanConfig) (old : List DiskFile) (db : IndexDb) : Prop where
  indexed : ∀ f ∈ old, ∃ r ∈ db.files.rows, ∃ header, r.rootId = cfg.rootId ∧
    cfg.fold r.relPath = cfg.fold f.relPath ∧ unchanged r f.stat = true ∧ f.header = .ok header ∧
      SameContent db r.id header ∧ db.contentKey r.id ≠ []
  live : ∀ r ∈ db.files.rows, r.rootId = cfg.rootId → r.status ≠ .missing →
    ∃ f ∈ old, cfg.fold f.relPath = cfg.fold r.relPath
  distinct : ∀ r ∈ db.files.rows, ∀ q ∈ db.files.rows, r.rootId = cfg.rootId →
    q.rootId = cfg.rootId → r.status ≠ .missing → q.status ≠ .missing →
    db.contentKey r.id = db.contentKey q.id → r = q

/-- A complete scan after the files `old`, which the index agrees with, were renamed by `σ`. -/
structure Renaming (cfg : ScanConfig) (ignore : List Str) (old : List DiskFile) (σ : Str → Str)
    (disk : List DiskFile) (run : ScanRun W) (db : IndexDb) : Prop
    extends DiskScan cfg ignore disk run db where
  stale : Stale cfg.rootId run.scanStart db
  agrees : Agrees cfg old db
  oldPaths : (old.map fun f => cfg.fold f.relPath).Nodup
  injective : ∀ f ∈ old, ∀ g ∈ old, cfg.fold (σ f.relPath) = cfg.fold (σ g.relPath) → f = g
  renamed : ∀ f, OnDisk ignore disk f ↔ ∃ g ∈ old, renameFile σ g = f
  stores : ∀ f, ¬ Failed (swept cfg run (walk ignore disk) db) f

/-- The frames of the files `old`, with their associations, belong in `d` to the rows at the files'
new paths. -/
def FramesFollow (cfg : ScanConfig) (old : List DiskFile) (σ : Str → Str) (db d : IndexDb) : Prop :=
  ∀ f ∈ old, ∀ r ∈ db.files.rows, r.rootId = cfg.rootId →
    cfg.fold r.relPath = cfg.fold f.relPath → ∀ hdu x, db.frames.get (r.id, hdu) = some x →
      ∃ q ∈ d.files.rows, q.rootId = cfg.rootId ∧ cfg.fold q.relPath = cfg.fold (σ f.relPath) ∧
        ∃ y, d.frames.get (q.id, hdu) = some y ∧ y.id = x.id ∧ y.flatSetId = x.flatSetId ∧
          (∀ t, (x.id, t) ∈ d.frameTags ↔ (x.id, t) ∈ db.frameTags) ∧
          ∀ c, (c, x.id) ∈ d.collectionFrames ↔ (c, x.id) ∈ db.collectionFrames

/-- No file was renamed to a path that has a row. -/
def RenamedToFree (cfg : ScanConfig) (old : List DiskFile) (σ : Str → Str) (db : IndexDb) : Prop :=
  ∀ f ∈ old, cfg.fold (σ f.relPath) = cfg.fold f.relPath ∨
    ∀ r ∈ db.files.rows, r.rootId = cfg.rootId → cfg.fold r.relPath ≠ cfg.fold (σ f.relPath)

variable {cfg : ScanConfig} {ignore : List Str} {old disk : List DiskFile} {σ : Str → Str}
  {run : ScanRun W} {db : IndexDb}

/-! ### The guard -/

omit [Host] in
theorem guardTrips_eq_false_of_le {prior seen : ℕ} (h : prior ≤ seen) :
    guardTrips prior seen = false := by
  unfold guardTrips
  by_cases hp : 0 < prior
  · have hs : seen ≠ 0 := by omega
    have hh : ¬ seen < prior / 2 := by omega
    simp [hs, hh]
  · simp [hp]

theorem DiskScan.row_eq_of_path (h : DiskScan cfg ignore disk run db) {r q : FileRow}
    (hr : r ∈ db.files.rows) (hq : q ∈ db.files.rows) (hroot : r.rootId = cfg.rootId)
    (hroot' : q.rootId = cfg.rootId) (hpath : cfg.fold r.relPath = cfg.fold q.relPath) : r = q := by
  refine db.files.eq_of_key hr hq ?_
  rw [h.row_key hr hroot, h.row_key hq hroot', pathKey, pathKey, hpath]

theorem Renaming.onDisk (h : Renaming cfg ignore old σ disk run db) {f : DiskFile} (hf : f ∈ old) :
    OnDisk ignore disk (renameFile σ f) := (h.renamed _).mpr ⟨f, hf, rfl⟩

/-- No more rows were `ok` than there are files. -/
theorem Renaming.prior_le (h : Renaming cfg ignore old σ disk run db) :
    priorOkCount db cfg.rootId ≤ old.length := by
  have hmem : ∀ r ∈ db.files.rows.filter (fun r => r.rootId = cfg.rootId && r.status = .ok),
      r ∈ db.files.rows ∧ r.rootId = cfg.rootId ∧ r.status = .ok := by
    intro r hr
    simpa [List.mem_filter] using hr
  have hnd : ((db.files.rows.filter fun r => r.rootId = cfg.rootId && r.status = .ok).map
      fun r => cfg.fold r.relPath).Nodup := by
    refine (db.files.rows_nodup.filter _).map_on fun r hr q hq he => ?_
    exact h.row_eq_of_path (hmem r hr).1 (hmem q hq).1 (hmem r hr).2.1 (hmem q hq).2.1 he
  have hsub : ((db.files.rows.filter fun r => r.rootId = cfg.rootId && r.status = .ok).map
      fun r => cfg.fold r.relPath) ⊆ old.map fun f => cfg.fold f.relPath := by
    intro p hp
    obtain ⟨r, hr, rfl⟩ := List.mem_map.mp hp
    obtain ⟨hrow, hroot, hok⟩ := hmem r hr
    obtain ⟨f, hf, hpath⟩ := h.agrees.live r hrow hroot (by simp [hok])
    exact List.mem_map.mpr ⟨f, hf, hpath⟩
  have hlen := hnd.length_le_of_subset hsub
  simpa [priorOkCount] using hlen

/-- Every file is seen. -/
theorem Renaming.le_seen (h : Renaming cfg ignore old σ disk run db) :
    old.length ≤ seenNow (swept cfg run (walk ignore disk) db).db cfg.rootId run.scanStart := by
  have hnd : (old.map fun f => pathKey cfg (σ f.relPath)).Nodup := by
    refine (h.oldPaths.of_map).map_on fun f hf g hg he => ?_
    have hpath := h.apart _ _ (Or.inr ⟨_, (h.onDisk hf).1, rfl⟩) (Or.inr ⟨_, (h.onDisk hg).1, rfl⟩)
      (congrArg Prod.snd he)
    exact h.injective f hf g hg hpath
  have hsub : (old.map fun f => pathKey cfg (σ f.relPath)) ⊆
      ((swept cfg run (walk ignore disk) db).db.files.rows.filter fun r =>
        r.rootId = cfg.rootId && seenSince run.scanStart r).map fileKeying.key := by
    intro k hk
    obtain ⟨f, hf, rfl⟩ := List.mem_map.mp hk
    obtain ⟨r, t, hr, -, hlast, hss, -⟩ := h.row (h.onDisk hf)
    refine List.mem_map.mpr ⟨r, List.mem_filter.mpr ⟨Table.get_mem hr, ?_⟩, Table.get_key hr⟩
    have hroot : r.rootId = cfg.rootId := congrArg Prod.fst (Table.get_key hr)
    simp [hroot, seenSince, hlast, hss]
  have hlen := hnd.length_le_of_subset hsub
  simpa [seenNow] using hlen

theorem Renaming.full (h : Renaming cfg ignore old σ disk run db) :
    FullScan cfg ignore disk run db where
  toDiskScan := h.toDiskScan
  stale := h.stale
  passes := guardTrips_eq_false_of_le (le_trans h.prior_le h.le_seen)

/-! ### A path that was free -/

/-- The row the sweep makes for a file at a path without a row has the file's content. -/
theorem Renaming.new_row (h : Renaming cfg ignore old σ disk run db) {f : DiskFile} (hf : f ∈ old)
    (hfree : db.files.get (pathKey cfg (σ f.relPath)) = none) {header : RawHeader}
    (hh : f.header = .ok header) :
    ∃ a, (swept cfg run (walk ignore disk) db).db.files.get (pathKey cfg (σ f.relPath)) = some a ∧
      cfg.fold a.relPath = cfg.fold (σ f.relPath) ∧ a.status = .ok ∧ run.scanStart ≤ a.firstSeenUtc ∧
      SameContent (swept cfg run (walk ignore disk) db).db a.id header := by
  have hdisk := h.onDisk hf
  obtain ⟨r, t', hr, hpath, hlast, hss, hlive⟩ := h.row hdisk
  refine ⟨r, hr, hpath, ?_⟩
  have hkey : (renameFile σ f).offer.key (cfg.sweepConfig db) = pathKey cfg (σ f.relPath) :=
    offer_key _
  have hfree' : db.files.get ((renameFile σ f).offer.key (cfg.sweepConfig db)) = none := by
    rw [hkey]
    exact hfree
  have hr' : (swept cfg run (walk ignore disk) db).db.files.get
      ((renameFile σ f).offer.key (cfg.sweepConfig db)) = some r := by
    rw [hkey]
    exact hr
  obtain ⟨w, out, he, hto, heff⟩ := h.effect hdisk
  cases heff with
  | touched t st q hst hu hq =>
    rw [hfree'] at hq
    cases hq
  | stored t st g i hst hu hg hun hi hrow hfs =>
    rw [hr', hfree'] at hrow
    rw [hfree'] at hfs
    cases hrow
    have hgh : g = header := by
      have hh' : (renameFile σ f).offer.header = .ok header := hh
      rw [hh'] at hg
      cases hg
      rfl
    rw [hgh] at hfs
    have htl : some t = some t' := hlast
    cases htl
    exact ⟨rfl, hss, hfs.sameContent_of_new (not_mem_ids_of_next_le hi)⟩
  | failed t what => exact absurd ⟨w, t, what, he⟩ (h.stores _)
  | dropped hrow => exact absurd rfl hto
  | gone hst hrow => exact absurd rfl hto
  | settling st hst hu hrow => exact absurd rfl hto
  | refused t what hrow => exact absurd rfl hto

/-- The row of a file whose old path is not on disk any more vanished, with its frames. -/
theorem Renaming.old_row (h : Renaming cfg ignore old σ disk run db) {r : FileRow}
    (hr : r ∈ db.files.rows) (hroot : r.rootId = cfg.rootId) (hlive : r.status ≠ .missing)
    (hgone : ¬ PathOnDisk cfg ignore disk r.relPath) :
    r ∈ vanishedRows (swept cfg run (walk ignore disk) db).db cfg.rootId run.scanStart := by
  have hget := h.unseen (k := fileKeying.key r) fun f hf he => by
    rw [h.row_key hr hroot] at he
    have hpath := h.apart _ _ (Or.inr ⟨f, hf.1, rfl⟩) (Or.inl ⟨r, hr, hroot, rfl⟩)
      (congrArg Prod.snd he)
    exact hgone ⟨f, hf, hpath⟩
  rw [Table.get_of_mem hr] at hget
  refine mem_vanishedRows.mpr ⟨Table.get_mem hget, hroot, hlive, ?_⟩
  unfold seenSince
  cases hl : r.lastSeenUtc with
  | none => rfl
  | some t => simpa using (h.stale r hr hroot).2 t hl

theorem DiskScan.keyed (h : DiskScan cfg ignore disk run db) :
    KeyedScan cfg run (walk ignore disk) db := ⟨h.ends, h.keys_nodup⟩

/-- **A file renamed to a free path is recognised as moved.** -/
theorem Renaming.moved (h : Renaming cfg ignore old σ disk run db) {f : DiskFile} (hf : f ∈ old)
    {r : FileRow} (hr : r ∈ db.files.rows) (hroot : r.rootId = cfg.rootId)
    (hpath : cfg.fold r.relPath = cfg.fold f.relPath) (hgone : ¬ PathOnDisk cfg ignore disk r.relPath)
    (hfree : db.files.get (pathKey cfg (σ f.relPath)) = none) :
    ∃ a, Moved (swept cfg run (walk ignore disk) db).db cfg.rootId run.scanStart r a ∧
      cfg.fold a.relPath = cfg.fold (σ f.relPath) := by
  -- The content key a file on disk had in the index before.
  have hindexed : ∀ g ∈ old, ∀ q ∈ db.files.rows, q.rootId = cfg.rootId →
      cfg.fold q.relPath = cfg.fold g.relPath →
      ∃ header, g.header = .ok header ∧ SameContent db q.id header ∧ db.contentKey q.id ≠ [] ∧
        q.status ≠ .missing := by
    intro g hg q hq hqroot hqpath
    obtain ⟨q', hq', header, hroot', hpath', hun, hh, hsame, hne⟩ := h.agrees.indexed g hg
    have hqq : q' = q := h.row_eq_of_path hq' hq hroot' hqroot (hpath'.trans hqpath.symm)
    rw [hqq] at hun hsame hne
    refine ⟨header, hh, hsame, hne, fun hm => ?_⟩
    simp [unchanged, hm] at hun
  obtain ⟨header, hh, hsame, hne, hlive⟩ := hindexed f hf r hr hroot hpath
  obtain ⟨a, ha, hapath, haok, hfirst, hacontent⟩ := h.new_row hf hfree hh
  have hv := h.old_row hr hroot hlive hgone
  have hkept := (h.keyed.frames_of_vanished hv).contentKey
  have hakey : fileKeying.key a = pathKey cfg (σ f.relPath) := Table.get_key ha
  refine ⟨a, ⟨hv, ?_, ?_, ?_, ?_, ?_⟩, hapath⟩
  · exact mem_appearedRows.mpr ⟨Table.get_mem ha, congrArg Prod.fst hakey, hfirst⟩
  · rw [hkept]
    exact hne
  · rw [hkept]
    exact contentKey_of_header hacontent hsame
  · intro u hu he
    have huold := h.not_onDisk_of_vanished hu
    have hulive := mem_vanishedRows.mp hu
    rw [hkept, (h.keyed.frames_of_vanished hu).contentKey] at he
    exact h.agrees.distinct u huold.1 r hr hulive.2.1 hroot hulive.2.2.1 hlive he
  · intro b hb he
    obtain ⟨g', hg', hbkey, hbpath, -, hbfree⟩ := h.full.of_appeared hb
    obtain ⟨g, hg, rfl⟩ := (h.renamed g').mp hg'
    obtain ⟨q, hq, gheader, hqroot, hqpath, hqun, hgh, hqsame, -⟩ := h.agrees.indexed g hg
    have hqlive : q.status ≠ .missing := by
      intro hm
      simp [unchanged, hm] at hqun
    obtain ⟨b', hb', -, -, -, hbcontent⟩ := h.new_row hg hbfree hgh
    have hbget := Table.get_of_mem (mem_appearedRows.mp hb).1
    rw [hbkey] at hbget
    have hbb : b' = b := by
      have hb'' : (swept cfg run (walk ignore disk) db).db.files.get
          (pathKey cfg (renameFile σ g).relPath) = some b' := hb'
      rw [hbget] at hb''
      exact (Option.some.inj hb'').symm
    rw [hbb] at hbcontent
    have hkeys : db.contentKey q.id = db.contentKey r.id := by
      rw [← contentKey_of_header hbcontent hqsame, he, hkept]
    have hqr : q = r := h.agrees.distinct q hq r hr hqroot hroot hqlive hlive hkeys
    have hgf : g = f := by
      refine List.inj_on_of_nodup_map h.oldPaths hg hf ?_
      rw [← hqpath, hqr, hpath]
    have hsame' : fileKeying.key b = fileKeying.key a := by
      rw [hbkey, hakey, hgf]
      rfl
    exact Table.eq_of_key _ (mem_appearedRows.mp hb).1 (Table.get_mem ha) hsame'

/-! ### Frames -/

/-- What is associated with a frame whose file stays with its frames. -/
theorem Renaming.associations (h : Renaming cfg ignore old σ disk run db) {i : ℕ}
    (hi : i ∈ (scanRoot cfg run (walk ignore disk) db).db.files.ids)
    (hkept : FramesKept i db (swept cfg run (walk ignore disk) db).db) {hdu : ℕ} {x : FrameRow}
    (hx : db.frames.get (i, hdu) = some x) :
    (scanRoot cfg run (walk ignore disk) db).db.frames.get (i, hdu) = some x ∧
      (∀ t, (x.id, t) ∈ (scanRoot cfg run (walk ignore disk) db).db.frameTags ↔
        (x.id, t) ∈ db.frameTags) ∧
      ∀ c, (c, x.id) ∈ (scanRoot cfg run (walk ignore disk) db).db.collectionFrames ↔
        (c, x.id) ∈ db.collectionFrames := by
  have hfinal : (scanRoot cfg run (walk ignore disk) db).db.frames.get (i, hdu) = some x := by
    rw [(h.ends.survives.framesKept hi).frames, hkept.frames, hx]
  have hid : x.id ∈ (scanRoot cfg run (walk ignore disk) db).db.frames.ids :=
    Table.mem_ids.mpr ⟨x, Table.get_mem hfinal, rfl⟩
  refine ⟨hfinal, fun t => ?_, fun c => ?_⟩
  · rw [h.ends.survives.tags (x.id, t) hid, h.ends.sound.operator.frameTags]
  · rw [h.ends.survives.collections (c, x.id) hid, h.ends.sound.operator.collectionFrames]

/-- **Frames follow a file that stays or moves to a free path.** -/
theorem follows_of_free (h : Renaming cfg ignore old σ disk run db)
    (hfree : RenamedToFree cfg old σ db) :
    FramesFollow cfg old σ db (scanRoot cfg run (walk ignore disk) db).db := by
  intro f hf r hr hroot hpath hdu x hx
  obtain ⟨r', hr', header, hroot', hpath', hun, hh, hsame, hne⟩ := h.agrees.indexed f hf
  have hrr : r' = r := h.row_eq_of_path hr' hr hroot' hroot (hpath'.trans hpath.symm)
  rw [hrr] at hun
  rcases hfree f hf with hstay | hfresh
  · have hdisk := h.onDisk hf
    have hkeyr : pathKey cfg (renameFile σ f).relPath = fileKeying.key r := by
      rw [h.row_key hr hroot, pathKey, pathKey, hpath]
      show (_, Host.md5 (cfg.fold (σ f.relPath))) = _
      rw [hstay]
    have hget : db.files.get (pathKey cfg (renameFile σ f).relPath) = some r := by
      rw [hkeyr]
      exact Table.get_of_mem hr
    obtain ⟨t, ht⟩ := h.touched_of_unchanged hdisk hget hun
    have hkept : FramesKept r.id db (swept cfg run (walk ignore disk) db).db := by
      refine h.frames_of_unchanged hr fun g hg he => ?_
      obtain ⟨g₀, hg₀, rfl⟩ := (h.renamed g).mp hg
      have hpaths := h.apart _ _ (Or.inr ⟨_, hg.1, rfl⟩) (Or.inr ⟨_, hdisk.1, rfl⟩)
        (congrArg Prod.snd (he.trans hkeyr.symm))
      rw [h.injective g₀ hg₀ f hf hpaths]
      exact hun
    obtain ⟨p, hp, q, hq, hcase⟩ := h.full.final_row hdisk
    rw [ht] at hp
    cases hp
    -- The row was there before the scan, so it did not appear.
    have hnot : ∀ v, ¬ Moved (swept cfg run (walk ignore disk) db).db cfg.rootId run.scanStart v
        ((touchRow t).apply r) := by
      intro v hm
      have hold := (h.stale r hr hroot).1
      exact absurd (mem_appearedRows.mp hm.appeared).2.2 (not_le.mpr hold)
    rcases hcase with rfl | ⟨v, hv, -⟩
    · have hid : r.id ∈ (scanRoot cfg run (walk ignore disk) db).db.files.ids :=
        Table.mem_ids.mpr ⟨_, hq, rfl⟩
      obtain ⟨hfinal, htags, hcolls⟩ := h.associations hid hkept hx
      exact ⟨_, hq, hroot, hpath.trans hstay.symm, x, hfinal, rfl, rfl, htags, hcolls⟩
    · exact absurd hv (hnot v)
  · have hnone : db.files.get (pathKey cfg (σ f.relPath)) = none := by
      rw [Table.get_eq_none_iff]
      intro q hq hkey
      have hqroot : q.rootId = cfg.rootId := congrArg Prod.fst hkey
      rw [h.row_key hq hqroot] at hkey
      exact hfresh q hq hqroot (h.apart _ _ (Or.inl ⟨q, hq, hqroot, rfl⟩)
        (Or.inr ⟨_, (h.onDisk hf).1, rfl⟩) (congrArg Prod.snd hkey))
    have hgone : ¬ PathOnDisk cfg ignore disk r.relPath := by
      intro hp
      obtain ⟨g', hg', hgpath⟩ := hp
      obtain ⟨g, hg, rfl⟩ := (h.renamed g').mp hg'
      have hgpath' : cfg.fold (σ g.relPath) = cfg.fold r.relPath := hgpath
      rcases hfree g hg with hgstay | hgfresh
      · have hgf : g = f :=
          List.inj_on_of_nodup_map h.oldPaths hg hf (by rw [← hgstay, hgpath', hpath])
        rw [hgf] at hgpath'
        exact hfresh r hr hroot hgpath'.symm
      · exact hgfresh r hr hroot hgpath'.symm
    obtain ⟨a, hm, hapath⟩ := h.moved hf hr hroot hpath hgone hnone
    have hrow := (mem_vanishedRows.mp hm.vanished).1
    have hfinal := ((scan_reconciled h.ends h.full.passes).rows _).mpr
      ⟨r, hrow, h.full.target_free hm, .moved a hm⟩
    have hid : r.id ∈ (scanRoot cfg run (walk ignore disk) db).db.files.ids :=
      Table.mem_ids.mpr ⟨_, hfinal, rfl⟩
    obtain ⟨hx', htags, hcolls⟩ := h.associations hid (h.keyed.frames_of_vanished hm.vanished) hx
    exact ⟨_, hfinal, hroot, hapath, x, hx', rfl, rfl, htags, hcolls⟩

/-- A frame keeps file, HDU and id through a sweep. -/
theorem KeyedScan.frame_stays {offers : List Offer} (h : KeyedScan cfg run offers db) {i hdu : ℕ}
    {x : FrameRow} (hx : db.frames.get (i, hdu) = some x) :
    ∃ y, (swept cfg run offers db).db.frames.get (i, hdu) = some y ∧ y.id = x.id := by
  by_cases hi : StoredId (cfg.sweepConfig db) (swept cfg run offers db) i
  · obtain ⟨e, he, t, r, hout, hr, hid⟩ := hi
    have heff := h.exact.effects e he
    rw [hout] at heff
    cases heff with
    | stored t st g j hst hu hh hun hj hrow hfs =>
      rw [hr] at hrow
      rw [← Option.some.inj hrow, hid] at hfs
      obtain ⟨y, hy, hyid, -⟩ := hfs.frame_id hx
      exact ⟨y, hy, hyid⟩
  · exact ⟨x, ((h.exact.frames i hi).frames hdu).trans hx, rfl⟩

/-- A file at a path that had a row has that row after the scan. -/
theorem FullScan.row_of_known (h : FullScan cfg ignore disk run db) {f : DiskFile}
    (hf : OnDisk ignore disk f) {r : FileRow} (hr : r ∈ db.files.rows)
    (hroot : r.rootId = cfg.rootId) (hpath : cfg.fold r.relPath = cfg.fold f.relPath) {q : FileRow}
    (hq : q ∈ (scanRoot cfg run (walk ignore disk) db).db.files.rows)
    (hqroot : q.rootId = cfg.rootId) (hqpath : cfg.fold q.relPath = cfg.fold f.relPath) :
    q.id = r.id := by
  have hget : db.files.get (pathKey cfg f.relPath) = some r := by
    rw [pathKey, ← hpath, ← pathKey, ← h.row_key hr hroot]
    exact Table.get_of_mem hr
  obtain ⟨p, hp, hpid⟩ := h.ends.sound.keeps _ r hget
  obtain ⟨-, p', hp', hcase⟩ := h.final_of_path hf hq hqroot hqpath
  rw [hp] at hp'
  cases hp'
  rcases hcase with rfl | ⟨v, hv, -⟩
  · exact hpid
  · obtain ⟨g, hg, hkey, -, -, hnone⟩ := h.of_appeared hv.appeared
    rw [← hkey, Table.get_key hp, hget] at hnone
    cases hnone

/-- **Frames follow their files** exactly if no file was renamed to a path that has a row. -/
theorem framesFollow_iff (cfg : ScanConfig) (ignore : List Str) (old : List DiskFile)
    (σ : Str → Str) (disk : List DiskFile) (run : ScanRun W) (db : IndexDb)
    (h : Renaming cfg ignore old σ disk run db) :
    FramesFollow cfg old σ db (scanRoot cfg run (walk ignore disk) db).db ↔
      RenamedToFree cfg old σ db := by
  constructor
  · intro hfollow f hf
    by_contra hcon
    simp only [not_or, not_forall, not_not] at hcon
    obtain ⟨hmoved, p, hp, hproot, hppath⟩ := hcon
    obtain ⟨r, hr, header, hroot, hpath, -, -, -, hne⟩ := h.agrees.indexed f hf
    obtain ⟨hdu, x, hx⟩ : ∃ hdu x, db.frames.get (r.id, hdu) = some x := by
      by_contra hnone
      refine hne (contentKey_eq_nil_iff.mpr fun hdu => ?_)
      cases hx : db.frames.get (r.id, hdu) with
      | none => rfl
      | some x => exact absurd ⟨hdu, x, hx⟩ hnone
    obtain ⟨q, hq, hqroot, hqpath, y, hy, hyx, -⟩ := hfollow f hf r hr hroot hpath hdu x hx
    have hqp : q.id = p.id := h.full.row_of_known (h.onDisk hf) hp hproot hppath hq hqroot hqpath
    -- The frame still belongs to the row it belonged to.
    obtain ⟨z, hz, hzx⟩ := h.keyed.frame_stays hx
    have hyswept := ((h.ends.survives.frames y).mp (Table.get_mem hy)).1
    have hyz : y = z := Table.eq_of_id _ hyswept (Table.get_mem hz) (hyx.trans hzx.symm)
    have hqr : q.id = r.id := by
      rw [← (hdu_of_get hy).1, hyz, (hdu_of_get hz).1]
    have hpr : p = r := db.files.eq_of_id hp hr (hqp.symm.trans hqr)
    rw [hpr, hpath] at hppath
    exact hmoved hppath.symm
  · exact follows_of_free h

end Follow

/-! ### Two files trade places -/

section Trade

attribute [local instance] plainHost

def longHeader : RawHeader :=
  ⟨[{ plainHdu with cards := [⟨"EXPTIME".toList, "60".toList, []⟩] }], by decide⟩

/-- Two files of different contents. -/
def tradeOld : List DiskFile :=
  [fileAt "a.fits".toList ⟨2880, 0, 0, 1⟩ (.ok plainHeader),
    fileAt "b.fits".toList ⟨2880, 0, 0, 2⟩ (.ok longHeader)]

def tradeIndex : IndexDb :=
  { twoFiles with
    frames :=
      { rows := [plainFrame 1 1,
          { plainFrame 2 2 with fingerprint := "||60|||||".toList }]
        next := 3
        id_lt := by decide
        id_nodup := by decide
        key_nodup := by decide }
    frames_fk := by decide }

/-- Send the first path to `p` and the second to `q`. -/
def sendTo (p q : String) (path : Str) : Str :=
  if path = "a.fits".toList then p.toList
  else if path = "b.fits".toList then q.toList else path

def tradeDisk (p q : String) : List DiskFile := tradeOld.map (renameFile (sendTo p q))

theorem tradeIndex_agrees : Agrees plainScan tradeOld tradeIndex where
  indexed := by
    intro f hf
    simp only [tradeOld, List.mem_cons, List.not_mem_nil, or_false] at hf
    rcases hf with rfl | rfl
    · exact ⟨indexedRow 1 "a.fits" 5, by decide, plainHeader, rfl, rfl, by decide, rfl, by decide,
        by decide⟩
    · exact ⟨indexedRow 2 "b.fits" 5, by decide, longHeader, rfl, rfl, by decide, rfl, by decide,
        by decide⟩
  live := by
    have hall : ∀ r ∈ tradeIndex.files.rows, ∃ f ∈ tradeOld, f.relPath = r.relPath := by decide
    exact fun r hr _ _ => hall r hr
  distinct := by decide

theorem renaming_trade (p q : String)
    (hends : RunsToEnd plainScan (oneWorkerRun 6) (walk [] (tradeDisk p q)) tradeIndex)
    (hpaths : ((tradeDisk p q).map DiskFile.relPath).Nodup)
    (hwalked : ∀ f ∈ tradeDisk p q, walked [] f = true)
    (hout : ∀ out ∈ (swept plainScan (oneWorkerRun 6) (walk [] (tradeDisk p q))
      tradeIndex).trace.map Entry.outcome, out ∈ [Outcome.stored 10, .touched 10]) :
    Renaming plainScan [] tradeOld (sendTo p q) (tradeDisk p q) (oneWorkerRun 6) tradeIndex where
  ends := hends
  paths := hpaths
  hashed := by
    have hall : ∀ r ∈ tradeIndex.files.rows, r.relPathHash = r.relPath := by decide
    exact fun r hr _ => hall r hr
  apart _ _ _ _ h := h
  settled := by
    have hall : ∀ f ∈ tradeOld,
        unsettled (plainScan.sweepConfig tradeIndex) 1000 f.stat = false := by decide
    intro f hf _
    obtain ⟨g, hg, rfl⟩ := List.mem_map.mp hf.1
    exact hall g hg
  stale := by
    have hall : ∀ r ∈ tradeIndex.files.rows, r.firstSeenUtc = 5 ∧ r.lastSeenUtc = some 5 := by
      decide
    intro r hr _
    obtain ⟨hfirst, hlast⟩ := hall r hr
    rw [hfirst, hlast]
    refine ⟨by decide, fun t ht => ?_⟩
    cases ht
    decide
  agrees := tradeIndex_agrees
  oldPaths := by decide
  injective f hf g hg he := by
    have hpaths' : (tradeOld.map fun f => sendTo p q f.relPath).Nodup := by
      simpa [tradeDisk, renameFile, List.map_map, Function.comp_def] using hpaths
    exact List.inj_on_of_nodup_map hpaths' hf hg he
  renamed f := by
    constructor
    · intro hf
      obtain ⟨g, hg, he⟩ := List.mem_map.mp hf.1
      exact ⟨g, hg, he⟩
    · intro hf
      obtain ⟨g, hg, rfl⟩ := hf
      have hmem : renameFile (sendTo p q) g ∈ tradeDisk p q := List.mem_map_of_mem hg
      exact ⟨hmem, hwalked _ hmem⟩
  stores f hf := by
    obtain ⟨w, t, what, he⟩ := hf
    have hmem := hout _ (List.mem_map_of_mem he)
    simp at hmem

/-- Moved to a path without a row, the first file keeps its frame. -/
theorem framesFollow_one : FramesFollow plainScan tradeOld (sendTo "c.fits" "b.fits") tradeIndex
    (scanRoot plainScan (oneWorkerRun 6) (walk [] (tradeDisk "c.fits" "b.fits")) tradeIndex).db := by
  have hfree : ∀ f ∈ tradeOld, sendTo "c.fits" "b.fits" f.relPath = f.relPath ∨
      ∀ r ∈ tradeIndex.files.rows, r.rootId = 1 →
        r.relPath ≠ sendTo "c.fits" "b.fits" f.relPath := by decide
  exact (framesFollow_iff plainScan [] tradeOld (sendTo "c.fits" "b.fits")
    (tradeDisk "c.fits" "b.fits") (oneWorkerRun 6) tradeIndex
    (renaming_trade "c.fits" "b.fits" (by decide) (by decide) (by decide) (by decide))).mpr hfree

/-- When the two files trade places, each frame stays with the path and loses its content. -/
theorem frames_stay_behind :
    Renaming plainScan [] tradeOld (sendTo "b.fits" "a.fits") (tradeDisk "b.fits" "a.fits")
        (oneWorkerRun 6) tradeIndex ∧
      ¬ FramesFollow plainScan tradeOld (sendTo "b.fits" "a.fits") tradeIndex
        (scanRoot plainScan (oneWorkerRun 6) (walk [] (tradeDisk "b.fits" "a.fits"))
          tradeIndex).db := by
  refine ⟨renaming_trade "b.fits" "a.fits" (by decide) (by decide) (by decide) (by decide),
    fun hfollow => ?_⟩
  have hframes : ∀ q ∈ (scanRoot plainScan (oneWorkerRun 6)
      (walk [] (tradeDisk "b.fits" "a.fits")) tradeIndex).db.files.rows,
      q.relPath = "b.fits".toList → ((scanRoot plainScan (oneWorkerRun 6)
        (walk [] (tradeDisk "b.fits" "a.fits")) tradeIndex).db.frames.get (q.id, 0)).map
          FrameRow.id = some 2 := by decide
  obtain ⟨q, hq, -, hpath, y, hy, hid, -⟩ := hfollow (fileAt "a.fits".toList ⟨2880, 0, 0, 1⟩
    (.ok plainHeader)) (by simp [tradeOld]) (indexedRow 1 "a.fits" 5) (by decide) rfl rfl 0
    (plainFrame 1 1) (by decide)
  have hy2 := hframes q hq hpath
  rw [hy] at hy2
  have hid2 : y.id = 2 := Option.some.inj hy2
  rw [hid2] at hid
  cases hid

end Trade

end StarBase.Scan
