import StarBase.Index.StoreExact

/-!
# Storing a file again

* `Answered` — the caches know the equipment of a frame;
* `Settled` — another store of the HDU would leave its frame as it is;
* `storeHdus_settled` — **PROVED**: what a store leaves is settled;
* `storeHdus_again` — **PROVED**: storing what is settled changes no row;
* `storeFile_again` — **PROVED**: storing a file again returns and changes its time stamps only.
-/

namespace StarBase

open Relational Extract Transactions

section Again

variable [Host]

/-! ### Equipment that is known -/

/-- The ids of a frame, as the caches give them. -/
structure Answered (reg : EquipmentRegistry) (f : ResolvedFrame) (ids : EquipmentIds)
    (c : Caches) : Prop where
  camera : ∀ raw, f.instrumeRaw = some raw → c.camera.lookup (lower raw) = some ids.cameraId
  noCamera : f.instrumeRaw = none → ids.cameraId = none
  filter : ∀ raw, f.filterRaw = some raw → raw ≠ [] → c.filter.lookup (lower raw) = some ids.filterId
  noFilter : (∀ raw, f.filterRaw = some raw → raw = []) → ids.filterId = none
  rig : ids.rigId = (matchRig reg ids.cameraId f.focalLenMm).map RigRow.id
  site : ids.siteId = ((matchRig reg ids.cameraId f.focalLenMm).bind RigRow.siteId).orElse
    fun _ => reg.defaultSiteId

omit [Host] in
theorem Answered.mono {reg : EquipmentRegistry} {f : ResolvedFrame} {ids : EquipmentIds}
    {c c' : Caches} (h : Answered reg f ids c) (hgrow : CachesGrow c c') :
    Answered reg f ids c' :=
  { h with
    camera := fun raw hraw => hgrow.camera _ _ (h.camera raw hraw)
    filter := fun raw hraw hne => hgrow.filter _ _ (h.filter raw hraw hne) }

theorem resolveCamera_hit {reg : EquipmentRegistry} {raw : Str} {s : StoreState} {found : Option ℕ}
    (h : s.caches.camera.lookup (lower raw) = some found) :
    resolveCamera reg raw s = (found, s) := by
  unfold resolveCamera
  rw [h]

theorem resolveFilter_hit {reg : EquipmentRegistry} {raw : Str} {s : StoreState} {found : Option ℕ}
    (hne : raw ≠ []) (h : s.caches.filter.lookup (lower raw) = some found) :
    resolveFilter reg raw s = (found, s) := by
  unfold resolveFilter
  rw [if_neg hne, h]

/-- The lookups of a frame that is known change nothing. -/
theorem Answered.resolve {reg : EquipmentRegistry} {f : ResolvedFrame} {ids : EquipmentIds}
    {s : StoreState} (h : Answered reg f ids s.caches) : resolveEquipment reg f s = (ids, s) := by
  have hcam : lookupIf (resolveCamera reg) f.instrumeRaw s = (ids.cameraId, s) := by
    cases hraw : f.instrumeRaw with
    | none => rw [h.noCamera hraw]; rfl
    | some raw => exact resolveCamera_hit (h.camera raw hraw)
  have hfilt : lookupIf (resolveFilter reg) f.filterRaw s = (ids.filterId, s) := by
    cases hraw : f.filterRaw with
    | none =>
      rw [h.noFilter fun raw hr => by rw [hraw] at hr; cases hr]
      rfl
    | some raw =>
      by_cases hne : raw = []
      · rw [h.noFilter fun raw' hr => by rw [hraw] at hr; cases hr; exact hne]
        show resolveFilter reg raw s = _
        unfold resolveFilter
        rw [if_pos hne]
      · exact resolveFilter_hit hne (h.filter raw hraw hne)
  unfold resolveEquipment
  rw [hcam]
  dsimp only
  rw [hfilt, ← h.rig, ← h.site]

theorem resolveCamera_cached (reg : EquipmentRegistry) (raw : Str) (s : StoreState) :
    (resolveCamera reg raw s).2.caches.camera.lookup (lower raw) =
      some (resolveCamera reg raw s).1 := by
  unfold resolveCamera
  cases h : s.caches.camera.lookup (lower raw) with
  | some found => exact h
  | none => exact List.lookup_cons_self

theorem resolveFilter_cached (reg : EquipmentRegistry) {raw : Str} (hne : raw ≠ [])
    (s : StoreState) : (resolveFilter reg raw s).2.caches.filter.lookup (lower raw) =
      some (resolveFilter reg raw s).1 := by
  unfold resolveFilter
  rw [if_neg hne]
  cases h : s.caches.filter.lookup (lower raw) with
  | some found => exact h
  | none => exact List.lookup_cons_self

/-- What a run without errors caches stays cached. -/
theorem cachesGrow_of_quiet {α : Type} {m : StoreTx α} (h : Cached m) {s t : StoreState} {a : α}
    (hrun : m s [] = ⟨.ok a, t, []⟩) : CachesGrow s.caches t.caches := by
  have hgrow : CachesGrow s.caches (m s []).store.caches := h s []
  rw [hrun] at hgrow
  exact hgrow

/-- A frame's equipment is known once it has been looked up. -/
theorem answered_resolve (reg : EquipmentRegistry) (f : ResolvedFrame) (s : StoreState) :
    Answered reg f (resolveEquipment reg f s).1 (resolveEquipment reg f s).2.caches := by
  have hfilterGrow : ∀ u : StoreState,
      CachesGrow u.caches (lookupIf (resolveFilter reg) f.filterRaw u).2.caches := fun u =>
    cachesGrow_of_quiet (cached_lookupIf (cached_resolveFilter reg) _)
      (lookupIfTx_quiet (resolveFilterTx_quiet reg) f.filterRaw u)
  refine ⟨fun raw hraw => ?_, fun hraw => ?_, fun raw hraw hne => ?_, fun hnone => ?_, rfl, rfl⟩
  · refine (hfilterGrow _).camera _ _ ?_
    show (lookupIf (resolveCamera reg) f.instrumeRaw s).2.caches.camera.lookup _ =
      some (lookupIf (resolveCamera reg) f.instrumeRaw s).1
    rw [hraw]
    exact resolveCamera_cached reg raw s
  · show (lookupIf (resolveCamera reg) f.instrumeRaw s).1 = none
    rw [hraw]
    rfl
  · show (lookupIf (resolveFilter reg) f.filterRaw _).2.caches.filter.lookup _ =
      some (lookupIf (resolveFilter reg) f.filterRaw _).1
    rw [hraw]
    exact resolveFilter_cached reg hne _
  · show (lookupIf (resolveFilter reg) f.filterRaw _).1 = none
    cases hraw : f.filterRaw with
    | none => rfl
    | some raw =>
      show (resolveFilter reg raw _).1 = none
      unfold resolveFilter
      rw [if_pos (hnone raw hraw)]

/-! ### Frames that are settled -/

/-- The frames, their cards and the equipment are as they were; files may have been added. -/
structure FramesLeft (s t : StoreState) : Prop where
  files : ∀ i ∈ s.db.files.ids, i ∈ t.db.files.ids
  frames : t.db.frames.rows = s.db.frames.rows
  keywords : ∀ i, t.db.keywordsOf i = s.db.keywordsOf i
  cameras : ∀ i ∈ s.db.cameras.ids, i ∈ t.db.cameras.ids
  filters : ∀ i ∈ s.db.filters.ids, i ∈ t.db.filters.ids
  operator : t.db.operator = s.db.operator
  caches : CachesGrow s.caches t.caches

/-- The frame of an HDU, its cards and its equipment are what a store writes. -/
structure Settled (ctx : StoreContext) (fid : ℕ) (h : Hdu) (f : ResolvedFrame)
    (ids : EquipmentIds) (row : FrameRow) (s : StoreState) : Prop where
  resolved : resolve h ctx.mapping ctx.site = .ok f
  columns : columnsAccepted f = true
  accepted : cardsAccepted h.cards = true
  answered : Answered ctx.registry f ids s.caches
  equipment : equipmentExists s.db ids = true
  file : fid ∈ s.db.files.ids
  frame : s.db.frames.get (fid, h.index) = some row
  fixed : (storedFrame h f ids).apply row = row
  cards : s.db.keywordsOf row.id = cardRows row.id h.cards

theorem equipmentExists_mono {db d : IndexDb} {ids : EquipmentIds}
    (hcam : ∀ i ∈ db.cameras.ids, i ∈ d.cameras.ids)
    (hfilt : ∀ i ∈ db.filters.ids, i ∈ d.filters.ids) (hop : d.operator = db.operator)
    (h : equipmentExists db ids = true) : equipmentExists d ids = true := by
  unfold equipmentExists at h ⊢
  simp only [Bool.and_eq_true, Option.all_eq_true, List.contains_iff_mem] at h ⊢
  rw [hop]
  obtain ⟨⟨⟨hc, hf⟩, hr⟩, hs⟩ := h
  exact ⟨⟨⟨fun i hi => hcam i (hc i hi), fun i hi => hfilt i (hf i hi)⟩, hr⟩, hs⟩

variable {ctx : StoreContext} {fid : ℕ} {h : Hdu} {f : ResolvedFrame} {ids : EquipmentIds}
variable {row : FrameRow} {s t : StoreState}

theorem Settled.left (hset : Settled ctx fid h f ids row s) (hleft : FramesLeft s t) :
    Settled ctx fid h f ids row t :=
  { hset with
    answered := hset.answered.mono hleft.caches
    equipment := equipmentExists_mono hleft.cameras hleft.filters hleft.operator hset.equipment
    file := hleft.files _ hset.file
    frame := (Table.get_of_rows hleft.frames _).trans hset.frame
    cards := (hleft.keywords _).trans hset.cards }

/-- **What is stored is settled.** -/
theorem settled_storeHdu (hs : storeHdu ctx fid h s = (.ok (), t)) :
    ∃ f ids row, Settled ctx fid h f ids row t := by
  obtain ⟨f, db, frame, hres, hput, hget, haccepted, rfl⟩ := storeHdu_inv hs
  obtain ⟨hcols, hequip, hfiles, hframes, -, hop, hcam, hfilt⟩ := putFrame_ok hput
  have hframe : frame = storedOver fid h f (resolveEquipment ctx.registry f s).1
      (resolveEquipment ctx.registry f s).2.db.frames.next
      ((resolveEquipment ctx.registry f s).2.db.frames.get (fid, h.index)) := by
    rw [hframes, Table.get_upsert_self] at hget
    exact (Option.some.inj hget).symm
  refine ⟨f, _, frame, hres, hcols, haccepted, answered_resolve ctx.registry f s, ?_, ?_, hget, ?_, ?_⟩
  · refine equipmentExists_mono (fun i hi => ?_) (fun i hi => ?_) hop.operator hequip
    · show i ∈ db.cameras.ids
      rw [hcam]
      exact hi
    · show i ∈ db.filters.ids
      rw [hfilt]
      exact hi
  · have hmem := db.frames_fk frame (Table.get_mem hget)
    have hkey : frame.fileId = fid := congrArg Prod.fst (Table.get_key hget)
    rw [hkey] at hmem
    exact hmem
  · rw [hframe]
    unfold storedOver
    cases (resolveEquipment ctx.registry f s).2.db.frames.get (fid, h.index) with
    | none => rfl
    | some old => rfl
  · show (db.replaceKeywords frame.id (cardRows frame.id h.cards)).keywordsOf frame.id = _
    rw [keywordsOf_replace, if_pos rfl]

/-- What a store of an HDU leaves of the names and the caches. -/
structure NamesLeft (s t : StoreState) : Prop where
  files : t.db.files = s.db.files
  cameras : ∀ i ∈ s.db.cameras.ids, i ∈ t.db.cameras.ids
  filters : ∀ i ∈ s.db.filters.ids, i ∈ t.db.filters.ids
  operator : t.db.operator = s.db.operator
  caches : CachesGrow s.caches t.caches

theorem storeHdu_names (hs : storeHdu ctx fid h s = (.ok (), t)) : NamesLeft s t := by
  have hgrow : CachesGrow s.caches t.caches := by
    have hsame := storeHduTx_quiet ctx fid h s
    have hcached := cached_storeHdu ctx fid h s []
    rw [hs] at hsame
    generalize storeHduTx ctx fid h s [] = o at hsame hcached
    cases hsame
    exact hcached
  obtain ⟨f, db, frame, hres, hput, hget, -, rfl⟩ := storeHdu_inv hs
  obtain ⟨-, -, hfiles, -, -, hop, hcam, hfilt⟩ := putFrame_ok hput
  have hgrown := resolveEquipment_grows ctx.registry f s
  refine ⟨hfiles.trans hgrown.files, fun i hi => ?_, fun i hi => ?_,
    hop.operator.trans hgrown.operator.operator, hgrow⟩
  · show i ∈ db.cameras.ids
    rw [hcam]
    exact hgrown.cameras i hi
  · show i ∈ db.filters.ids
    rw [hfilt]
    exact hgrown.filters i hi

/-- Storing another HDU of the file leaves a settled frame settled. -/
theorem Settled.other {g : Hdu} (hset : Settled ctx fid h f ids row s)
    (hs : storeHdu ctx fid g s = (.ok (), t)) (hne : g.index ≠ h.index) :
    Settled ctx fid h f ids row t := by
  obtain ⟨hstored, -, -, -⟩ := storeHdu_ok hs
  have hnames := storeHdu_names hs
  have hother : ∀ g' ∈ [g], g'.index ≠ h.index := by
    intro g' hg'
    rw [List.mem_singleton.mp hg']
    exact hne
  exact
    { hset with
      answered := hset.answered.mono hnames.caches
      equipment := equipmentExists_mono hnames.cameras hnames.filters hnames.operator hset.equipment
      file := by
        rw [hnames.files]
        exact hset.file
      frame := (hstored.kept h.index hother).trans hset.frame
      cards := (hstored.keptCards h.index row hother hset.frame).trans hset.cards }

/-- **Every frame that is stored is settled.** -/
theorem storeHdus_settled {hdus : List Hdu} (hnd : (hdus.map Hdu.index).Nodup)
    (hs : storeHdus ctx fid hdus s = (.ok (), t)) :
    (∀ h ∈ hdus, ∃ f ids row, Settled ctx fid h f ids row t) ∧
      ∀ h f ids row, (∀ g ∈ hdus, g.index ≠ h.index) → Settled ctx fid h f ids row s →
        Settled ctx fid h f ids row t := by
  induction hdus generalizing s with
  | nil =>
    cases hs
    exact ⟨fun h hh => absurd hh List.not_mem_nil, fun h f ids row _ hset => hset⟩
  | cons g rest ih =>
    rw [List.map_cons, List.nodup_cons] at hnd
    unfold storeHdus at hs
    cases hone : storeHdu ctx fid g s with
    | mk res u =>
      rw [hone] at hs
      cases res with
      | error e => cases hs
      | ok _ =>
        dsimp only at hs
        obtain ⟨hrest, hkeep⟩ := ih hnd.2 hs
        constructor
        · intro h hh
          rcases List.mem_cons.mp hh with rfl | hh
          · obtain ⟨f, ids, row, hset⟩ := settled_storeHdu hone
            exact ⟨f, ids, row, hkeep h f ids row
              (fun g hg he => hnd.1 (he ▸ List.mem_map_of_mem hg)) hset⟩
          · exact hrest h hh
        · intro h f ids row hother hset
          exact hkeep h f ids row (fun g' hg' => hother g' (List.mem_cons_of_mem _ hg'))
            (hset.other hone (hother g List.mem_cons_self))

/-! ### Storing what is settled -/

/-- The same rows, the cards of each frame in the same order. -/
structure RowsSame (db d : IndexDb) : Prop where
  files : d.files.rows = db.files.rows
  frames : d.frames.rows = db.frames.rows
  keywords : ∀ i, d.keywordsOf i = db.keywordsOf i
  cameras : d.cameras.rows = db.cameras.rows
  filters : d.filters.rows = db.filters.rows
  operator : OperatorKept db d

theorem RowsSame.refl (db : IndexDb) : RowsSame db db :=
  ⟨rfl, rfl, fun _ => rfl, rfl, rfl, OperatorKept.refl db⟩

theorem RowsSame.trans {a b c : IndexDb} (hab : RowsSame a b) (hbc : RowsSame b c) :
    RowsSame a c :=
  ⟨hbc.files.trans hab.files, hbc.frames.trans hab.frames,
    fun i => (hbc.keywords i).trans (hab.keywords i), hbc.cameras.trans hab.cameras,
    hbc.filters.trans hab.filters, hab.operator.trans hbc.operator⟩

theorem RowsKept.same {db d : IndexDb} (h : RowsKept db d) : RowsSame db d :=
  ⟨h.files, h.frames, fun i => by unfold IndexDb.keywordsOf; rw [h.keywords], h.cameras, h.filters,
    h.operator⟩

theorem RowsSame.left (h : RowsSame s.db t.db) (hcaches : CachesGrow s.caches t.caches) :
    FramesLeft s t where
  files i hi := by
    unfold Table.ids at hi ⊢
    rw [h.files]
    exact hi
  frames := h.frames
  keywords := h.keywords
  cameras i hi := by
    unfold Table.ids at hi ⊢
    rw [h.cameras]
    exact hi
  filters i hi := by
    unfold Table.ids at hi ⊢
    rw [h.filters]
    exact hi
  operator := h.operator.operator
  caches := hcaches

/-- Storing a settled HDU changes no row. -/
theorem Settled.again (hset : Settled ctx fid h f ids row s) :
    ∃ t, storeHdu ctx fid h s = (.ok (), t) ∧ RowsSame s.db t.db ∧ t.caches = s.caches := by
  obtain ⟨db, hdb⟩ : ∃ db, db = s.db.upsertFrame fid h.index hset.file (newFrame fid h f ids)
    (storedFrame h f ids) := ⟨_, rfl⟩
  have hput : s.db.putFrame fid h f ids = .ok db := by
    unfold IndexDb.putFrame
    rw [hset.columns, if_neg Bool.noConfusion, dif_pos hset.file, hset.equipment,
      if_neg Bool.noConfusion, hdb]
  have hrows : db.frames.rows = s.db.frames.rows := by
    have hmap : (s.db.frames.upsert (fid, h.index) (newFrame fid h f ids)
        (storedFrame h f ids)).rows.map id = s.db.frames.rows.map id :=
      Table.map_rows_upsert hset.frame hset.fixed
    rw [List.map_id, List.map_id] at hmap
    rw [hdb]
    exact hmap
  have hget : db.frames.get (fid, h.index) = some row :=
    (Table.get_of_rows hrows _).trans hset.frame
  refine ⟨{ s with db := db.replaceKeywords row.id (cardRows row.id h.cards) }, ?_, ?_, rfl⟩
  · have hknown := hset.answered.resolve
    have hput' : (resolveEquipment ctx.registry f s).2.db.putFrame fid h f
        (resolveEquipment ctx.registry f s).1 = .ok db := by
      rw [hknown]
      exact hput
    rw [storeHdu_of hset.resolved hput' hget hset.accepted, hknown]
  · refine ⟨by rw [hdb]; rfl, hrows, fun i => ?_, by rw [hdb]; rfl, by rw [hdb]; rfl,
      by rw [hdb]; exact ⟨rfl, rfl, rfl⟩⟩
    show (db.replaceKeywords row.id (cardRows row.id h.cards)).keywordsOf i = _
    rw [keywordsOf_replace]
    split
    · next hi => rw [hi, hset.cards]
    · rw [hdb]
      rfl

/-- **Storing settled HDUs changes no row.** -/
theorem storeHdus_again {hdus : List Hdu} :
    ∀ {s : StoreState}, (∀ h ∈ hdus, ∃ f ids row, Settled ctx fid h f ids row s) →
      ∃ t, storeHdus ctx fid hdus s = (.ok (), t) ∧ RowsSame s.db t.db ∧ t.caches = s.caches := by
  induction hdus with
  | nil => exact fun _ => ⟨_, rfl, RowsSame.refl _, rfl⟩
  | cons h rest ih =>
    intro s hall
    obtain ⟨f, ids, row, hset⟩ := hall h List.mem_cons_self
    obtain ⟨u, hone, hsame, hcaches⟩ := hset.again
    have hleft : FramesLeft s u := hsame.left (by rw [hcaches]; exact CachesGrow.refl _)
    obtain ⟨t, hrest, hsame', hcaches'⟩ := ih fun g hg => by
      obtain ⟨f, ids, row, hset⟩ := hall g (List.mem_cons_of_mem _ hg)
      exact ⟨f, ids, row, hset.left hleft⟩
    refine ⟨t, ?_, hsame.trans hsame', hcaches'.trans hcaches⟩
    unfold storeHdus
    rw [hone]
    exact hrest

/-! ### The file again -/

/-- A row without the times it was seen and indexed. -/
def unstamped (r : FileRow) : FileRow := { r with lastSeenUtc := none, lastIndexedUtc := none }

/-- The same rows, but for the times files were seen and indexed. -/
structure SameUpToStamps (db d : IndexDb) : Prop where
  files : d.files.rows.map unstamped = db.files.rows.map unstamped
  frames : d.frames.rows = db.frames.rows
  keywords : ∀ i, d.keywordsOf i = db.keywordsOf i
  cameras : d.cameras.rows = db.cameras.rows
  filters : d.filters.rows = db.filters.rows
  operator : OperatorKept db d

variable {now : Micros} {info : FileInfo} {header : RawHeader} {v : StoreState}

/-- **Storing a file again** returns and changes its time stamps only. -/
theorem storeFile_again (h : storeFile ctx now info header s = (.ok (), t))
    (hkept : StateKept t v) (now' : Micros) :
    ∃ u, storeFile ctx now' info header v = (.ok (), u) ∧ SameUpToStamps t.db u.db := by
  obtain ⟨haccepted, hstored⟩ := storeFile_eq_ok_iff.mp h
  have hfiles : t.db.files = s.db.files.upsert info.key (info.newRow now) (info.storedRow now) :=
    (storeFile_ok h).1
  obtain ⟨r, hr⟩ : ∃ r, r = info.storedOver now s.db.files.next (s.db.files.get info.key) :=
    ⟨_, rfl⟩
  rw [← hr] at hstored
  have hget : v.db.files.get info.key = some r := by
    rw [Table.get_of_rows hkept.rows.files, hfiles, Table.get_upsert_self, hr]
    rfl
  -- every frame of the file is settled, and stays so while the `files` row is written
  obtain ⟨w, hw⟩ : ∃ w : StoreState, w = { v with
    db := v.db.upsertFile info.key (info.newRow now') (info.storedRow now') } := ⟨_, rfl⟩
  have hleft : FramesLeft v w := by
    rw [hw]
    exact ⟨fun i hi => Table.mem_ids_upsert hi, rfl, fun _ => rfl, fun _ hi => hi, fun _ hi => hi,
      rfl, CachesGrow.refl _⟩
  have hsettled : ∀ h ∈ header.imageHdus, ∃ f ids row, Settled ctx r.id h f ids row w := by
    intro g hg
    obtain ⟨f, ids, row, hset⟩ := (storeHdus_settled (imageHdus_nodup header) hstored).1 g hg
    exact ⟨f, ids, row, (hset.left (hkept.rows.same.left hkept.caches)).left hleft⟩
  obtain ⟨u, hagain, hsame, -⟩ := storeHdus_again hsettled
  refine ⟨u, ?_, ?_⟩
  · refine storeFile_eq_ok_iff.mpr ⟨haccepted, ?_⟩
    rw [hget, ← hw]
    exact hagain
  · have hstamp : unstamped ((info.storedRow now').apply r) = unstamped r := by
      rw [hr]
      unfold FileInfo.storedOver
      cases s.db.files.get info.key with
      | none => rfl
      | some old => rfl
    have hmap : (v.db.files.upsert info.key (info.newRow now') (info.storedRow now')).rows.map
        unstamped = v.db.files.rows.map unstamped := Table.map_rows_upsert hget hstamp
    have hrows : w.db.files.rows = (v.db.files.upsert info.key (info.newRow now')
        (info.storedRow now')).rows := by
      rw [hw]
      rfl
    have hkeys : ∀ i, w.db.keywordsOf i = v.db.keywordsOf i := hleft.keywords
    have hrest : w.db.cameras = v.db.cameras ∧ w.db.filters = v.db.filters ∧
        OperatorKept v.db w.db := by
      rw [hw]
      exact ⟨rfl, rfl, ⟨rfl, rfl, rfl⟩⟩
    refine ⟨?_, ?_, fun i => ?_, ?_, ?_, ?_⟩
    · rw [hsame.files, hrows, hmap, hkept.rows.files]
    · rw [hsame.frames, hleft.frames, hkept.rows.frames]
    · rw [hsame.keywords, hkeys, hkept.rows.same.keywords]
    · rw [hsame.cameras, hrest.1, hkept.rows.cameras]
    · rw [hsame.filters, hrest.2.1, hkept.rows.filters]
    · exact (hkept.rows.operator.trans hrest.2.2).trans hsame.operator

end Again

end StarBase
