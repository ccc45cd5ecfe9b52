import StarBase.Index.Content
import StarBase.Scan.Reconcile

/-!
# What a reconciliation leaves

* `Moved` — the content of a vanished row appeared at exactly one new row, and no other vanished
  row has it;
* `Survives` — nothing happened to the frames of the files that are left;
* `reconcile_spec` — **PROVED**: whatever order the server returns rows in, no statement is
  refused, every row that appeared and is matched is gone, every vanished row is re-anchored if it
  moved and missing otherwise, and every other row is as it was.
-/

namespace StarBase.Scan

open Relational

section Spec

variable [Host]

/-! ### Matches -/

/-- The vanished row `v` and the row `a` that appeared are one moved file. -/
structure Moved (db : IndexDb) (rootId : ℕ) (ss : Micros) (v a : FileRow) : Prop where
  vanished : v ∈ vanishedRows db rootId ss
  appeared : a ∈ appearedRows db rootId ss
  nonempty : db.contentKey v.id ≠ []
  same : db.contentKey a.id = db.contentKey v.id
  oneVanished : ∀ u ∈ vanishedRows db rootId ss, db.contentKey u.id = db.contentKey v.id → u = v
  oneAppeared : ∀ b ∈ appearedRows db rootId ss, db.contentKey b.id = db.contentKey v.id → b = a

theorem mem_vanishedRows {db : IndexDb} {rootId : ℕ} {ss : Micros} {r : FileRow} :
    r ∈ vanishedRows db rootId ss ↔ r ∈ db.files.rows ∧ r.rootId = rootId ∧
      r.status ≠ .missing ∧ seenSince ss r = false := by
  simp [vanishedRows, isVanished, List.mem_filter, and_assoc]

theorem mem_appearedRows {db : IndexDb} {rootId : ℕ} {ss : Micros} {r : FileRow} :
    r ∈ appearedRows db rootId ss ↔ r ∈ db.files.rows ∧ r.rootId = rootId ∧
      ss ≤ r.firstSeenUtc := by
  simp [appearedRows, isAppeared, List.mem_filter]

theorem vanishedRows_nodup (db : IndexDb) (rootId : ℕ) (ss : Micros) :
    (vanishedRows db rootId ss).Nodup := db.files.rows_nodup.filter _

theorem appearedRows_nodup (db : IndexDb) (rootId : ℕ) (ss : Micros) :
    (appearedRows db rootId ss).Nodup := db.files.rows_nodup.filter _

section Match

variable {db : IndexDb} {rootId : ℕ} {ss : Micros} {vs as : List FileRow}

theorem vkCount_eq_one_iff (hvs : vs.Perm (vanishedRows db rootId ss)) {v : FileRow} (hv : v ∈ vs) :
    vkCount db vs (db.contentKey v.id) = 1 ↔
      ∀ u ∈ vanishedRows db rootId ss, db.contentKey u.id = db.contentKey v.id → u = v := by
  have hnd : vs.Nodup := hvs.nodup_iff.mpr (vanishedRows_nodup db rootId ss)
  have hone : 0 < vkCount db vs (db.contentKey v.id) :=
    List.length_pos_of_mem (List.mem_filter.mpr ⟨hv, by simp⟩)
  have hle := Table.length_filter_le_one_iff hnd fun u =>
    decide (db.contentKey u.id = db.contentKey v.id)
  constructor
  · intro h u hu he
    have hlen : (vs.filter fun u => decide (db.contentKey u.id = db.contentKey v.id)).length ≤ 1 :=
      le_of_eq h
    exact hle.mp hlen u (hvs.mem_iff.mpr hu) v hv (by simpa using he) (by simp)
  · intro h
    have hlen : vkCount db vs (db.contentKey v.id) ≤ 1 := by
      refine hle.mpr fun u hu w hw hpu hpw => ?_
      rw [h u (hvs.mem_iff.mp hu) (by simpa using hpu), h w (hvs.mem_iff.mp hw) (by simpa using hpw)]
    omega

theorem ambiguous_eq_false_iff (has : as.Perm (appearedRows db rootId ss)) {k : List Str} :
    ambiguous db as k = false ↔ ∀ a ∈ appearedRows db rootId ss,
      ∀ b ∈ appearedRows db rootId ss, db.contentKey a.id = k → db.contentKey b.id = k → a = b := by
  have hnd : as.Nodup := has.nodup_iff.mpr (appearedRows_nodup db rootId ss)
  have hle := Table.length_filter_le_one_iff hnd fun a => decide (db.contentKey a.id = k)
  unfold ambiguous
  rw [decide_eq_false_iff_not, not_lt, hle]
  constructor
  · intro h a ha b hb hka hkb
    exact h a (has.mem_iff.mpr ha) b (has.mem_iff.mpr hb) (by simpa using hka) (by simpa using hkb)
  · intro h a ha b hb hka hkb
    exact h a (has.mem_iff.mp ha) b (has.mem_iff.mp hb) (by simpa using hka) (by simpa using hkb)

/-- **The match does not depend on the order of the rows.** -/
theorem moveTarget_eq_some_iff (hvs : vs.Perm (vanishedRows db rootId ss))
    (has : as.Perm (appearedRows db rootId ss)) {v a : FileRow} (hv : v ∈ vs) :
    moveTarget db vs as v = some a ↔ Moved db rootId ss v a := by
  unfold moveTarget
  dsimp only
  constructor
  · intro h
    split at h
    · rename_i hc
      obtain ⟨hne, hamb, hcount⟩ := hc
      have ha : a ∈ as := List.mem_of_find?_eq_some h
      have hk : db.contentKey a.id = db.contentKey v.id := by simpa using List.find?_some h
      have ha' := has.mem_iff.mp ha
      refine ⟨hvs.mem_iff.mp hv, ha', hne, hk, (vkCount_eq_one_iff hvs hv).mp hcount, ?_⟩
      intro b hb he
      exact (ambiguous_eq_false_iff has).mp hamb b hb a ha' he hk
    · cases h
  · intro h
    have hamb : ambiguous db as (db.contentKey v.id) = false := by
      refine (ambiguous_eq_false_iff has).mpr fun b hb c hc hkb hkc => ?_
      rw [h.oneAppeared b hb hkb, h.oneAppeared c hc hkc]
    rw [if_pos ⟨h.nonempty, hamb, (vkCount_eq_one_iff hvs hv).mpr h.oneVanished⟩]
    cases hf : as.find? fun a => decide (db.contentKey a.id = db.contentKey v.id) with
    | none =>
      have := List.find?_eq_none.mp hf a (has.mem_iff.mpr h.appeared)
      simp [h.same] at this
    | some b =>
      have hb : b ∈ as := List.mem_of_find?_eq_some hf
      have hk : db.contentKey b.id = db.contentKey v.id := by simpa using List.find?_some hf
      rw [h.oneAppeared b (has.mem_iff.mp hb) hk]

theorem Moved.target_unique {v a b : FileRow} (ha : Moved db rootId ss v a)
    (hb : Moved db rootId ss v b) : a = b :=
  hb.oneAppeared a ha.appeared ha.same

theorem Moved.source_unique {u v a : FileRow} (hu : Moved db rootId ss u a)
    (hv : Moved db rootId ss v a) : u = v :=
  hv.oneVanished u hu.vanished (hu.same.symm.trans hv.same)

/-- A row that appeared and also vanished can only be matched with itself. -/
theorem Moved.eq_of_vanished {v a : FileRow} (h : Moved db rootId ss v a)
    (ha : a ∈ vanishedRows db rootId ss) : a = v :=
  h.oneVanished a ha h.same

end Match

/-! ### Frames of the files that are left -/

/-- Some files may be gone; the frames of the others are the same. -/
structure Survives (db d : IndexDb) : Prop where
  ids : ∀ i ∈ d.files.ids, i ∈ db.files.ids
  frames : ∀ f, f ∈ d.frames.rows ↔ f ∈ db.frames.rows ∧ f.fileId ∈ d.files.ids
  cards : ∀ f ∈ d.frames.rows, d.keywordsOf f.id = db.keywordsOf f.id
  tags : ∀ p : ℕ × ℕ, p.1 ∈ d.frames.ids → (p ∈ d.frameTags ↔ p ∈ db.frameTags)
  collections : ∀ p : ℕ × ℕ, p.2 ∈ d.frames.ids → (p ∈ d.collectionFrames ↔ p ∈ db.collectionFrames)
  operator : d.operator = db.operator
  cameras : d.cameras = db.cameras
  filters : d.filters = db.filters

theorem Survives.frames_ids {db d : IndexDb} (h : Survives db d) {i : ℕ} (hi : i ∈ d.frames.ids) :
    i ∈ db.frames.ids := by
  obtain ⟨f, hf, rfl⟩ := Table.mem_ids.mp hi
  exact Table.mem_ids.mpr ⟨f, ((h.frames f).mp hf).1, rfl⟩

theorem Survives.trans {a b c : IndexDb} (hab : Survives a b) (hbc : Survives b c) :
    Survives a c where
  ids i hi := hab.ids i (hbc.ids i hi)
  frames f := by
    rw [hbc.frames f, hab.frames f]
    constructor
    · exact fun h => ⟨h.1.1, h.2⟩
    · exact fun h => ⟨⟨h.1, hbc.ids _ h.2⟩, h.2⟩
  cards f hf := by rw [hbc.cards f hf, hab.cards f ((hbc.frames f).mp hf).1]
  tags p hp := (hbc.tags p hp).trans (hab.tags p (hbc.frames_ids hp))
  collections p hp := (hbc.collections p hp).trans (hab.collections p (hbc.frames_ids hp))
  operator := hbc.operator.trans hab.operator
  cameras := hbc.cameras.trans hab.cameras
  filters := hbc.filters.trans hab.filters

/-- The frames of a file that stays. -/
theorem Survives.framesKept {db d : IndexDb} (h : Survives db d) {i : ℕ} (hi : i ∈ d.files.ids) :
    FramesKept i db d where
  frames hdu := by
    ext f
    rw [Table.get_eq_some_iff, Table.get_eq_some_iff, h.frames f]
    constructor
    · exact fun hf => ⟨hf.1.1, hf.2⟩
    · intro hf
      have hid : f.fileId = i := congrArg Prod.fst hf.2
      exact ⟨⟨hf.1, hid ▸ hi⟩, hf.2⟩
  cards hdu f hf := by
    refine h.cards f ((h.frames f).mpr ⟨Table.get_mem hf, ?_⟩)
    rw [(hdu_of_get hf).1]
    exact hi

/-- An update of `files` that keeps the ids touches no frame. -/
theorem survives_of_ids {db d : IndexDb} (hids : d.files.ids = db.files.ids)
    (hf : d.frames = db.frames) (hk : d.keywords = db.keywords) (ht : d.frameTags = db.frameTags)
    (hc : d.collectionFrames = db.collectionFrames) (ho : d.operator = db.operator)
    (hcam : d.cameras = db.cameras) (hfil : d.filters = db.filters) : Survives db d where
  ids i hi := by rwa [← hids]
  frames f := by
    rw [hf, hids]
    exact ⟨fun h => ⟨h, db.frames_fk f h⟩, fun h => h.1⟩
  cards f _ := by
    unfold IndexDb.keywordsOf
    rw [hk]
  tags p _ := by rw [ht]
  collections p _ := by rw [hc]
  operator := ho
  cameras := hcam
  filters := hfil

theorem mem_deleteFiles_frames {db : IndexDb} {p : FileRow → Bool} {f : FrameRow} :
    f ∈ (db.deleteFiles p).frames.rows ↔
      f ∈ db.frames.rows ∧ f.fileId ∈ (db.deleteFiles p).files.ids := by
  show f ∈ (db.frames.deleteWhere _).rows ↔ _
  rw [Table.mem_deleteWhere, Table.mem_ids]
  simp [IndexDb.deleteFiles, fileKeying]

theorem survives_deleteFiles (db : IndexDb) (p : FileRow → Bool) :
    Survives db (db.deleteFiles p) where
  ids i hi := by
    obtain ⟨r, hr, rfl⟩ := Table.mem_ids.mp hi
    exact Table.mem_ids.mpr ⟨r, (Table.mem_deleteWhere.mp hr).1, rfl⟩
  frames f := mem_deleteFiles_frames
  cards f hf := by
    show (db.keywords.filter _).filter _ = db.keywords.filter _
    rw [List.filter_filter]
    refine List.filter_congr fun k _ => ?_
    by_cases hk : k.frameId = f.id
    · have : ∃ g ∈ (db.deleteFiles p).frames.rows, g.id = f.id := ⟨f, hf, rfl⟩
      simpa [hk, IndexDb.deleteFiles] using this
    · simp [hk]
  tags q hq := by
    obtain ⟨f, hf, he⟩ := Table.mem_ids.mp hq
    show q ∈ db.frameTags.filter _ ↔ _
    rw [List.mem_filter]
    have : ∃ g ∈ (db.deleteFiles p).frames.rows, g.id = q.1 := ⟨f, hf, he⟩
    simpa [IndexDb.deleteFiles] using fun _ => this
  collections q hq := by
    obtain ⟨f, hf, he⟩ := Table.mem_ids.mp hq
    show q ∈ db.collectionFrames.filter _ ↔ _
    rw [List.mem_filter]
    have : ∃ g ∈ (db.deleteFiles p).frames.rows, g.id = q.2 := ⟨f, hf, he⟩
    simpa [IndexDb.deleteFiles] using fun _ => this
  operator := rfl
  cameras := rfl
  filters := rfl

theorem rekeyFile_eq_some {db d : IndexDb} {i : ℕ} {f : FileRow → FileRow}
    {hf : ∀ r, (f r).id = r.id} (h : db.rekeyFile i f hf = some d) :
    d.files.rows = (db.files.rows.map fun r => if r.id = i then f r else r) ∧
      d.files.next = db.files.next ∧ Survives db d := by
  unfold IndexDb.rekeyFile at h
  split at h
  · cases h
  · rename_i files hr
    cases h
    have hrows := Table.rekey_eq_some_iff.mp hr
    exact ⟨hrows.1, hrows.2,
      survives_of_ids (Table.ids_rekey hr) rfl rfl rfl rfl rfl rfl rfl⟩

/-! ### The statements one by one -/

section Progress

variable (db : IndexDb) (vs as : List FileRow) (moment : ℕ → Micros)

/-- What becomes of a row of a database whose vanished rows `U` are dealt with. -/
def settledRow (U : List FileRow) (r : FileRow) : FileRow :=
  if r ∈ U then
    match moveTarget db vs as r with
    | some a => anchoredRow (moment r.id) a r
    | none => missingRow.apply r
  else r

theorem settledRow_id (U : List FileRow) (r : FileRow) :
    (settledRow db vs as moment U r).id = r.id := by
  unfold settledRow
  split
  · split <;> rfl
  · rfl

/-- The duplicates of the vanished rows `D` are deleted, and the vanished rows `U` are updated. -/
structure Progress (D U : List FileRow) (d : IndexDb) : Prop where
  rows : ∀ q, q ∈ d.files.rows ↔ ∃ r ∈ db.files.rows,
    (∀ v ∈ D, moveTarget db vs as v ≠ some r) ∧ settledRow db vs as moment U r = q
  next : d.files.next = db.files.next
  survives : Survives db d

variable {db vs as moment}

theorem progress_start : Progress db vs as moment [] [] db where
  rows q := by simp [settledRow]
  next := rfl
  survives := survives_of_ids rfl rfl rfl rfl rfl rfl rfl rfl

variable {rootId : ℕ} {ss : Micros} {D U : List FileRow} {d : IndexDb} {v a : FileRow}

/-- The duplicate goes. -/
theorem Progress.delete (h : Progress db vs as moment D U d) (ha : a ∈ db.files.rows)
    (ht : moveTarget db vs as v = some a) :
    Progress db vs as moment (D ++ [v]) U (d.deleteFile a.id) where
  rows q := by
    have hmem : q ∈ (d.deleteFile a.id).files.rows ↔ q ∈ d.files.rows ∧ q.id ≠ a.id := by
      show q ∈ (d.files.deleteWhere _).rows ↔ _
      rw [Table.mem_deleteWhere]
      simp
    rw [hmem, h.rows q]
    constructor
    · intro hq
      obtain ⟨⟨r, hr, hD, he⟩, hid⟩ := hq
      refine ⟨r, hr, ?_, he⟩
      intro u hu
      rcases List.mem_append.mp hu with hu | hu
      · exact hD u hu
      · rw [List.mem_singleton.mp hu, ht]
        intro hra
        cases hra
        exact hid (by rw [← he, settledRow_id])
    · intro hq
      obtain ⟨r, hr, hD, he⟩ := hq
      refine ⟨⟨r, hr, fun u hu => hD u (List.mem_append_left _ hu), he⟩, ?_⟩
      intro hid
      have hra : r = a := by
        refine db.files.eq_of_id hr ha ?_
        show r.id = a.id
        rw [← hid, ← he, settledRow_id]
      exact hD v (by simp) (by rw [ht, hra])
  next := h.next
  survives := h.survives.trans (survives_deleteFiles d _)

theorem settledRow_append (hv : v ∈ db.files.rows) {r : FileRow} (hr : r ∈ db.files.rows) :
    settledRow db vs as moment (U ++ [v]) r
      = if r.id = v.id then settledRow db vs as moment [v] r
        else settledRow db vs as moment U r := by
  by_cases hid : r.id = v.id
  · have hrv : r = v := db.files.eq_of_id hr hv hid
    rw [if_pos hid]
    unfold settledRow
    simp [hrv]
  · have hrv : r ≠ v := fun he => hid (congrArg FileRow.id he)
    rw [if_neg hid]
    unfold settledRow
    simp [hrv]

/-- One update of the row `v`. -/
theorem Progress.update (h : Progress db vs as moment D U d) (hv : v ∈ db.files.rows)
    (hvU : v ∉ U) {d' : IndexDb} {f : FileRow → FileRow} (hf : f v = settledRow db vs as moment [v] v)
    (hrows : d'.files.rows = d.files.rows.map fun r => if r.id = v.id then f r else r)
    (hnext : d'.files.next = d.files.next) (hsurv : Survives d d') :
    Progress db vs as moment D (U ++ [v]) d' where
  rows q := by
    have hone : ∀ r ∈ db.files.rows, (if (settledRow db vs as moment U r).id = v.id
        then f (settledRow db vs as moment U r) else settledRow db vs as moment U r)
          = settledRow db vs as moment (U ++ [v]) r := by
      intro r hr
      rw [settledRow_append hv hr, settledRow_id]
      by_cases hid : r.id = v.id
      · have hrv : r = v := db.files.eq_of_id hr hv hid
        have hU : settledRow db vs as moment U v = v := by
          unfold settledRow
          rw [if_neg hvU]
        rw [if_pos hid, if_pos hid, hrv, hU, hf]
      · rw [if_neg hid, if_neg hid]
    rw [hrows, List.mem_map]
    constructor
    · intro hq
      obtain ⟨p, hp, he⟩ := hq
      obtain ⟨r, hr, hD, rfl⟩ := (h.rows p).mp hp
      exact ⟨r, hr, hD, (hone r hr).symm.trans he⟩
    · intro hq
      obtain ⟨r, hr, hD, he⟩ := hq
      exact ⟨_, (h.rows _).mpr ⟨r, hr, hD, rfl⟩, (hone r hr).trans he⟩
  next := hnext.trans h.next
  survives := h.survives.trans hsurv

/-- Marking the row `v` missing. -/
theorem Progress.mark (h : Progress db vs as moment D U d) (hv : v ∈ db.files.rows) (hvU : v ∉ U)
    (ht : moveTarget db vs as v = none) :
    Progress db vs as moment (D ++ [v]) (U ++ [v])
      (d.modifyFiles (fun r => r.id = v.id) missingRow) := by
  have hup : Progress db vs as moment D (U ++ [v])
      (d.modifyFiles (fun r => r.id = v.id) missingRow) := by
    refine h.update hv hvU (f := missingRow.apply) ?_ ?_ rfl
      (survives_of_ids Table.ids_modify rfl rfl rfl rfl rfl rfl rfl)
    · simp [settledRow, ht]
    · show (d.files.modify _ _).rows = _
      rw [Table.modify_rows]
      simp
  refine ⟨fun q => ?_, hup.next, hup.survives⟩
  rw [hup.rows q]
  constructor
  · intro hq
    obtain ⟨r, hr, hD, he⟩ := hq
    refine ⟨r, hr, fun u hu => ?_, he⟩
    rcases List.mem_append.mp hu with hu | hu
    · exact hD u hu
    · rw [List.mem_singleton.mp hu, ht]
      simp
  · intro hq
    obtain ⟨r, hr, hD, he⟩ := hq
    exact ⟨r, hr, fun u hu => hD u (List.mem_append_left _ hu), he⟩

/-- Re-anchoring the row `v` once its duplicate is gone: the path is free. -/
theorem Progress.anchor (h : Progress db vs as moment D U d)
    (hvs : vs.Perm (vanishedRows db rootId ss)) (has : as.Perm (appearedRows db rootId ss))
    (hU : ∀ u ∈ U, u ∈ vs) (hv : v ∈ vs) (hvU : v ∉ U) (hvD : v ∈ D)
    (ht : moveTarget db vs as v = some a) :
    ∃ d', d.rekeyFile v.id (anchoredRow (moment v.id) a) (fun _ => rfl) = some d' ∧
      Progress db vs as moment D (U ++ [v]) d' := by
  have hm := (moveTarget_eq_some_iff hvs has hv).mp ht
  have hvrow := (mem_vanishedRows.mp hm.vanished).1
  have harow := (mem_appearedRows.mp hm.appeared).1
  have hfree : ∀ r ∈ d.files.rows, ∀ q ∈ d.files.rows, r.id ≠ v.id → q.id = v.id →
      fileKeying.key r ≠ fileKeying.key (anchoredRow (moment v.id) a q) := by
    intro r hr q hq hrv hqv hkey
    have hkey' : (r.rootId, r.relPathHash) = (q.rootId, a.relPathHash) := hkey
    obtain ⟨p, hp, hpD, rfl⟩ := (h.rows r).mp hr
    obtain ⟨w, hw, -, rfl⟩ := (h.rows q).mp hq
    rw [settledRow_id] at hrv hqv
    have hwv : w = v := db.files.eq_of_id hw hvrow hqv
    have hroot : (settledRow db vs as moment U w).rootId = a.rootId := by
      have hwU : settledRow db vs as moment U w = w := by
        unfold settledRow
        rw [if_neg (hwv ▸ hvU)]
      rw [hwU, hwv, (mem_vanishedRows.mp hm.vanished).2.1, (mem_appearedRows.mp hm.appeared).2.1]
    rw [hroot] at hkey'
    have hpa : p ≠ a := fun he => hpD v hvD (by rw [ht, he])
    unfold settledRow at hkey'
    split at hkey'
    · rename_i hpU
      split at hkey'
      · rename_i b hb
        have hmb := (moveTarget_eq_some_iff hvs has (hU p hpU)).mp hb
        have hbrow := mem_appearedRows.mp hmb.appeared
        have hbroot : p.rootId = b.rootId := by
          rw [(mem_vanishedRows.mp hmb.vanished).2.1, hbrow.2.1]
        have hba : b = a := by
          refine db.files.eq_of_key hbrow.1 harow ?_
          show (b.rootId, b.relPathHash) = (a.rootId, a.relPathHash)
          rw [← hkey', ← hbroot]
          rfl
        rw [hba] at hmb
        exact hrv (congrArg FileRow.id (hmb.source_unique hm))
      · exact hpa (db.files.eq_of_key hp harow hkey')
    · exact hpa (db.files.eq_of_key hp harow hkey')
  have hsome : (d.rekeyFile v.id (anchoredRow (moment v.id) a) (fun _ => rfl)).isSome := by
    have hsome' : (d.files.rekey v.id (anchoredRow (moment v.id) a) fun _ => rfl).isSome :=
      Table.rekey_isSome hfree
    unfold IndexDb.rekeyFile
    split
    · rename_i hnone
      rw [hnone] at hsome'
      cases hsome'
    · rfl
  obtain ⟨d', hd'⟩ := Option.isSome_iff_exists.mp hsome
  refine ⟨d', hd', ?_⟩
  obtain ⟨hrows, hnext, hsurv⟩ := rekeyFile_eq_some hd'
  exact h.update hvrow hvU (by simp [settledRow, ht]) hrows hnext hsurv

theorem runStatements_cons {d d' : IndexDb} {st : ReconcileStatement}
    (h : execStatement moment d st = some d') (rest : List ReconcileStatement) :
    runStatements moment d (st :: rest) = runStatements moment d' rest := by
  rw [runStatements, h]

/-- The loop over the vanished rows that are left. -/
theorem progress_loop (hvs : vs.Perm (vanishedRows db rootId ss))
    (has : as.Perm (appearedRows db rootId ss)) (rest : List FileRow) :
    ∀ (done : List FileRow) (d : IndexDb), vs = done ++ rest →
      Progress db vs as moment done done d →
      ∃ d', runStatements moment d (rest.flatMap (statementsFor db vs as)) = (d', true) ∧
        Progress db vs as moment vs vs d' := by
  induction rest with
  | nil =>
    intro done d hsplit h
    rw [List.append_nil] at hsplit
    exact ⟨d, rfl, hsplit ▸ h⟩
  | cons v rest ih =>
    intro done d hsplit h
    have hv : v ∈ vs := by simp [hsplit]
    have hnd : vs.Nodup := hvs.nodup_iff.mpr (vanishedRows_nodup db rootId ss)
    have hvdone : v ∉ done := by
      rw [hsplit, List.nodup_append] at hnd
      exact fun hmem => hnd.2.2 v hmem v (by simp) rfl
    have hvrow : v ∈ db.files.rows := (mem_vanishedRows.mp (hvs.mem_iff.mp hv)).1
    have hsplit' : vs = (done ++ [v]) ++ rest := by simp [hsplit]
    rw [List.flatMap_cons]
    unfold statementsFor
    cases ht : moveTarget db vs as v with
    | none =>
      obtain ⟨d', hrun, hd'⟩ := ih _ _ hsplit' (h.mark hvrow hvdone ht)
      exact ⟨d', hrun, hd'⟩
    | some a =>
      have hm := (moveTarget_eq_some_iff hvs has hv).mp ht
      have hdel := h.delete (mem_appearedRows.mp hm.appeared).1 ht
      have hdone : ∀ u ∈ done, u ∈ vs := by
        intro u hu
        rw [hsplit]
        exact List.mem_append_left _ hu
      obtain ⟨d₁, hd₁, hp⟩ := hdel.anchor hvs has hdone hv hvdone (by simp) ht
      obtain ⟨d', hrun, hd'⟩ := ih _ _ hsplit' hp
      have hgone : execStatement moment d (.deleteDuplicate a.id) = some (d.deleteFile a.id) := rfl
      have hset : execStatement moment (d.deleteFile a.id) (.reanchor v.id a) = some d₁ := hd₁
      refine ⟨d', ?_, hd'⟩
      show runStatements moment d (.deleteDuplicate a.id :: .reanchor v.id a :: _) = _
      rw [runStatements_cons hgone, runStatements_cons hset]
      exact hrun

end Progress

/-! ### The whole pass -/

/-- What becomes of a row that is not deleted. -/
inductive Became (db : IndexDb) (rootId : ℕ) (ss : Micros) (moment : ℕ → Micros) (r : FileRow) :
    FileRow → Prop
  | kept : r ∉ vanishedRows db rootId ss → Became db rootId ss moment r r
  | moved (a : FileRow) : Moved db rootId ss r a →
      Became db rootId ss moment r (anchoredRow (moment r.id) a r)
  | missing : r ∈ vanishedRows db rootId ss → (∀ a, ¬ Moved db rootId ss r a) →
      Became db rootId ss moment r (missingRow.apply r)

theorem Became.id_eq {db : IndexDb} {rootId : ℕ} {ss : Micros} {moment : ℕ → Micros}
    {r q : FileRow} (h : Became db rootId ss moment r q) : q.id = r.id := by
  cases h <;> rfl

/-- The database after the pass. -/
structure Reconciled (db : IndexDb) (rootId : ℕ) (ss : Micros) (moment : ℕ → Micros)
    (d : IndexDb) : Prop where
  rows : ∀ q, q ∈ d.files.rows ↔ ∃ r ∈ db.files.rows,
    (∀ v, ¬ Moved db rootId ss v r) ∧ Became db rootId ss moment r q
  next : d.files.next = db.files.next
  survives : Survives db d

theorem settledRow_became {db : IndexDb} {rootId : ℕ} {ss : Micros} {moment : ℕ → Micros}
    {vs as : List FileRow} (hvs : vs.Perm (vanishedRows db rootId ss))
    (has : as.Perm (appearedRows db rootId ss)) (r q : FileRow) :
    settledRow db vs as moment vs r = q ↔ Became db rootId ss moment r q := by
  unfold settledRow
  by_cases hr : r ∈ vs
  · rw [if_pos hr]
    have hrv := hvs.mem_iff.mp hr
    cases ht : moveTarget db vs as r with
    | some a =>
      have hm := (moveTarget_eq_some_iff hvs has hr).mp ht
      constructor
      · rintro rfl
        exact .moved a hm
      · intro h
        cases h with
        | kept hk => exact absurd hrv hk
        | moved b hb => rw [hm.target_unique hb]
        | missing _ hn => exact absurd hm (hn a)
    | none =>
      have hn : ∀ a, ¬ Moved db rootId ss r a := by
        intro a hm
        rw [(moveTarget_eq_some_iff hvs has hr).mpr hm] at ht
        cases ht
      constructor
      · rintro rfl
        exact .missing hrv hn
      · intro h
        cases h with
        | kept hk => exact absurd hrv hk
        | moved b hb => exact absurd hb (hn b)
        | missing => rfl
  · rw [if_neg hr]
    have hrv : r ∉ vanishedRows db rootId ss := fun h => hr (hvs.mem_iff.mpr h)
    constructor
    · rintro rfl
      exact .kept hrv
    · intro h
      cases h with
      | kept => rfl
      | moved b hb => exact absurd hb.vanished hrv
      | missing hv => exact absurd hv hrv

/-- **Reconciliation.**  When the guard lets it run no statement is refused, and the order of the
rows does not matter. -/
theorem reconcile_spec {db : IndexDb} {rootId prior : ℕ} {ss : Micros} (order : RowOrder)
    (moment : ℕ → Micros) (hguard : guardTrips prior (seenNow db rootId ss) = false) :
    Reconciled db rootId ss moment (reconcileRoot rootId ss prior order moment db).db := by
  have hvs := order.perm (vanishedRows db rootId ss)
  have has := order.perm (appearedRows db rootId ss)
  have hstart : Progress db (order.arrange (vanishedRows db rootId ss))
      (order.arrange (appearedRows db rootId ss)) moment [] [] db := progress_start
  obtain ⟨d, hrun, hp⟩ := progress_loop hvs has _ [] db rfl hstart
  have hdb : (reconcileRoot rootId ss prior order moment db).db = d := by
    unfold reconcileRoot reconcileStatements
    rw [hguard, if_neg Bool.false_ne_true]
    dsimp only
    rw [hrun]
    rfl
  rw [hdb]
  refine ⟨fun q => ?_, hp.next, hp.survives⟩
  rw [hp.rows q]
  constructor
  · intro hq
    obtain ⟨r, hr, hD, he⟩ := hq
    refine ⟨r, hr, fun v hm => ?_, (settledRow_became hvs has r q).mp he⟩
    have hv := hvs.mem_iff.mpr hm.vanished
    exact hD v hv ((moveTarget_eq_some_iff hvs has hv).mpr hm)
  · intro hq
    obtain ⟨r, hr, hD, hb⟩ := hq
    refine ⟨r, hr, fun v hv ht => ?_, (settledRow_became hvs has r q).mpr hb⟩
    exact hD v ((moveTarget_eq_some_iff hvs has hv).mp ht)

/-- When the guard trips nothing changes. -/
theorem reconcile_guarded {db : IndexDb} {rootId prior : ℕ} {ss : Micros} (order : RowOrder)
    (moment : ℕ → Micros) (hguard : guardTrips prior (seenNow db rootId ss) = true) :
    reconcileRoot rootId ss prior order moment db = { db := db } := by
  unfold reconcileRoot
  rw [if_pos hguard]

/-- When nothing vanished nothing changes. -/
theorem reconcile_nothing_vanished {db : IndexDb} {rootId prior : ℕ} {ss : Micros}
    (order : RowOrder) (moment : ℕ → Micros) (hv : vanishedRows db rootId ss = []) :
    reconcileRoot rootId ss prior order moment db = { db := db } := by
  have hnil : order.arrange [] = [] := (order.perm []).eq_nil
  unfold reconcileRoot
  rw [hv, hnil]
  split
  · rfl
  · rfl

end Spec

end StarBase.Scan
