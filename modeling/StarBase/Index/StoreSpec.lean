import StarBase.Index.FrameStore

/-!
# What a store transaction leaves

`storeFile` seen from outside: which rows it writes, and that it leaves every other row alone.

* `FramesKept` — a file's frames and their header cards are as they were;
* `FramesStored` — a file's frames are those of a header, under the ids they had;
* `storeFile_ok` — **PROVED**: a store that succeeds is one upsert of the `files` row and a
  `FramesStored` for that file, with every other file `FramesKept`;
* `storeFile_error` — **PROVED**: a store that fails changes no row.
-/

namespace StarBase

open Relational Extract

section Spec

variable [Host]

/-! ### Frames that stay -/

/-- The frames of the file `i` and their cards are the same in `d` as in `db`. -/
structure FramesKept (i : ℕ) (db d : IndexDb) : Prop where
  frames : ∀ hdu, d.frames.get (i, hdu) = db.frames.get (i, hdu)
  cards : ∀ hdu f, db.frames.get (i, hdu) = some f → d.keywordsOf f.id = db.keywordsOf f.id

theorem FramesKept.refl (i : ℕ) (db : IndexDb) : FramesKept i db db :=
  ⟨fun _ => rfl, fun _ _ _ => rfl⟩

theorem FramesKept.trans {i : ℕ} {a b c : IndexDb} (hab : FramesKept i a b)
    (hbc : FramesKept i b c) : FramesKept i a c where
  frames hdu := (hbc.frames hdu).trans (hab.frames hdu)
  cards hdu f hf := by
    have hb : b.frames.get (i, hdu) = some f := (hab.frames hdu).trans hf
    rw [hbc.cards hdu f hb, hab.cards hdu f hf]

theorem framesKept_of_eq {i : ℕ} {db d : IndexDb} (hf : d.frames = db.frames)
    (hk : d.keywords = db.keywords) : FramesKept i db d where
  frames hdu := by rw [hf]
  cards hdu f _ := by
    unfold IndexDb.keywordsOf
    rw [hk]

/-- The tables no store and no sweep writes. -/
structure OperatorKept (db d : IndexDb) : Prop where
  operator : d.operator = db.operator
  frameTags : d.frameTags = db.frameTags
  collectionFrames : d.collectionFrames = db.collectionFrames

theorem OperatorKept.refl (db : IndexDb) : OperatorKept db db := ⟨rfl, rfl, rfl⟩

theorem OperatorKept.trans {a b c : IndexDb} (hab : OperatorKept a b) (hbc : OperatorKept b c) :
    OperatorKept a c :=
  ⟨hbc.1.trans hab.1, hbc.2.trans hab.2, hbc.3.trans hab.3⟩

/-! ### Frames that are stored -/

/-- The row a frame's upsert leaves: the old row updated, or a new one under the id `i`. -/
def storedOver (fileId : ℕ) (h : Hdu) (f : ResolvedFrame) (ids : EquipmentIds) (i : ℕ)
    (old : Option FrameRow) : FrameRow :=
  old.elim ((newFrame fileId h f ids).make i) (storedFrame h f ids).apply

/-- Between `db` and `d` the file `fid` got the frames of `hdus`; frames of other HDUs stay. -/
structure FileStored (ctx : StoreContext) (hdus : List Hdu) (fid : ℕ) (db d : IndexDb) : Prop where
  written : ∀ h ∈ hdus, ∃ f ids i, resolve h ctx.mapping ctx.site = .ok f ∧
    db.frames.next ≤ i ∧
    d.frames.get (fid, h.index) = some (storedOver fid h f ids i (db.frames.get (fid, h.index))) ∧
    d.keywordsOf (storedOver fid h f ids i (db.frames.get (fid, h.index))).id
      = cardRows (storedOver fid h f ids i (db.frames.get (fid, h.index))).id h.cards
  kept : ∀ hdu, (∀ h ∈ hdus, h.index ≠ hdu) →
    d.frames.get (fid, hdu) = db.frames.get (fid, hdu)
  keptCards : ∀ hdu f, (∀ h ∈ hdus, h.index ≠ hdu) → db.frames.get (fid, hdu) = some f →
    d.keywordsOf f.id = db.keywordsOf f.id

/-- The same, and no other file's frames changed. -/
structure FramesStored (ctx : StoreContext) (hdus : List Hdu) (fid : ℕ) (db d : IndexDb) :
    Prop extends FileStored ctx hdus fid db d where
  others : ∀ i, i ≠ fid → FramesKept i db d

/-- What happened to other files before and after does not matter to a stored file. -/
theorem FileStored.between {ctx : StoreContext} {hdus : List Hdu} {fid : ℕ} {a b c d : IndexDb}
    (hab : FramesKept fid a b) (hnext : a.frames.next ≤ b.frames.next)
    (hbc : FileStored ctx hdus fid b c) (hcd : FramesKept fid c d) :
    FileStored ctx hdus fid a d where
  written h hh := by
    obtain ⟨f, ids, i, hres, hi, hget, hcards⟩ := hbc.written h hh
    rw [hab.frames] at hget hcards
    refine ⟨f, ids, i, hres, le_trans hnext hi, (hcd.frames _).trans hget, ?_⟩
    rw [hcd.cards h.index _ hget, hcards]
  kept hdu hh := by rw [hcd.frames, hbc.kept hdu hh, hab.frames]
  keptCards hdu f hh hf := by
    have hb : b.frames.get (fid, hdu) = some f := (hab.frames hdu).trans hf
    have hc : c.frames.get (fid, hdu) = some f := (hbc.kept hdu hh).trans hb
    rw [hcd.cards hdu f hc, hbc.keptCards hdu f hh hb, hab.cards hdu f hf]

theorem framesStored_nil {ctx : StoreContext} {fid : ℕ} {db : IndexDb} :
    FramesStored ctx [] fid db db where
  written := by simp
  kept _ _ := rfl
  keptCards _ _ _ _ := rfl
  others i _ := FramesKept.refl i db

/-- Storing one HDU, then the others, of which none has its index. -/
theorem FramesStored.cons {ctx : StoreContext} {fid : ℕ} {h : Hdu} {hs : List Hdu}
    {a b c : IndexDb} (hab : FramesStored ctx [h] fid a b) (hbc : FramesStored ctx hs fid b c)
    (hne : ∀ g ∈ hs, g.index ≠ h.index) (hnext : a.frames.next ≤ b.frames.next) :
    FramesStored ctx (h :: hs) fid a c where
  written g hg := by
    rcases List.mem_cons.mp hg with rfl | hg
    · obtain ⟨f, ids, i, hres, hi, hget, hcards⟩ := hab.written g (by simp)
      refine ⟨f, ids, i, hres, hi, ?_, ?_⟩
      · rw [hbc.kept g.index hne, hget]
      · rw [hbc.keptCards g.index _ hne hget, hcards]
    · obtain ⟨f, ids, i, hres, hi, hget, hcards⟩ := hbc.written g hg
      have hb : b.frames.get (fid, g.index) = a.frames.get (fid, g.index) := by
        refine hab.kept g.index ?_
        intro h' hh'
        rw [List.mem_singleton.mp hh']
        exact (hne g hg).symm
      rw [hb] at hget hcards
      exact ⟨f, ids, i, hres, le_trans hnext hi, hget, hcards⟩
  kept hdu hh := by
    rw [hbc.kept hdu fun g hg => hh g (List.mem_cons_of_mem _ hg)]
    exact hab.kept hdu (by simpa using hh h (by simp))
  keptCards hdu f hh hf := by
    have hb : b.frames.get (fid, hdu) = some f := by
      rw [hab.kept hdu (by simpa using hh h (by simp))]
      exact hf
    rw [hbc.keptCards hdu f (fun g hg => hh g (List.mem_cons_of_mem _ hg)) hb]
    exact hab.keptCards hdu f (by simpa using hh h (by simp)) hf
  others i hi := (hab.others i hi).trans (hbc.others i hi)

/-- A frame of a stored file keeps its id and its flat set. -/
theorem FileStored.frame_id {ctx : StoreContext} {hdus : List Hdu} {fid : ℕ} {db d : IndexDb}
    (h : FileStored ctx hdus fid db d) {hdu : ℕ} {f : FrameRow}
    (hf : db.frames.get (fid, hdu) = some f) :
    ∃ f', d.frames.get (fid, hdu) = some f' ∧ f'.id = f.id ∧ f'.flatSetId = f.flatSetId := by
  by_cases hh : ∃ g ∈ hdus, g.index = hdu
  · obtain ⟨g, hg, rfl⟩ := hh
    obtain ⟨c, ids, i, -, -, hget, -⟩ := h.written g hg
    rw [hf] at hget
    exact ⟨_, hget, rfl, rfl⟩
  · have hkept := h.kept hdu fun g hg he => hh ⟨g, hg, he⟩
    exact ⟨f, hkept.trans hf, rfl, rfl⟩

/-! ### One HDU -/

/-- The upsert of one frame and the replacement of its cards. -/
theorem framesStored_one {ctx : StoreContext} {fid : ℕ} {h : Hdu} {f : ResolvedFrame}
    {ids : EquipmentIds} {db d : IndexDb} (frame : FrameRow)
    (hres : resolve h ctx.mapping ctx.site = .ok f)
    (hframes : d.frames = db.frames.upsert (fid, h.index) (newFrame fid h f ids)
      (storedFrame h f ids))
    (hget : d.frames.get (fid, h.index) = some frame)
    (hcards : d.keywords
      = (db.keywords.filter fun k => k.frameId ≠ frame.id) ++ cardRows frame.id h.cards) :
    FramesStored ctx [h] fid db d := by
  have hself : frame = storedOver fid h f ids db.frames.next (db.frames.get (fid, h.index)) := by
    have := hget
    rw [hframes, Table.get_upsert_self] at this
    exact (Option.some.inj this).symm
  have hother : ∀ k : ℕ × ℕ, k ≠ (fid, h.index) → d.frames.get k = db.frames.get k := by
    intro k hk
    rw [hframes]
    exact Table.get_upsert_ne hk
  have hcardsOther : ∀ k : ℕ × ℕ, ∀ g, k ≠ (fid, h.index) → db.frames.get k = some g →
      d.keywordsOf g.id = db.keywordsOf g.id := by
    intro k g hk hg
    have hdg : d.frames.get k = some g := (hother k hk).trans hg
    have hid : g.id ≠ frame.id := fun he => hk (Table.key_eq_of_id hdg hget he)
    unfold IndexDb.keywordsOf
    rw [hcards, List.filter_append, List.filter_filter]
    have hnew : (cardRows frame.id h.cards).filter (fun k => decide (k.frameId = g.id)) = [] := by
      rw [List.filter_eq_nil_iff]
      intro k hk
      obtain ⟨n, c, -, rfl⟩ := List.mem_mapIdx.mp hk
      simp [cardRow, hid.symm]
    rw [hnew, List.append_nil]
    refine List.filter_congr fun k _ => ?_
    by_cases hk : k.frameId = g.id
    · simp [hk, hid]
    · simp [hk]
  refine ⟨⟨?_, ?_, ?_⟩, ?_⟩
  · intro g hg
    rw [List.mem_singleton.mp hg]
    refine ⟨f, ids, db.frames.next, hres, le_refl _, ?_, ?_⟩
    · rw [hget, hself]
    · rw [← hself]
      unfold IndexDb.keywordsOf
      rw [hcards, List.filter_append, List.filter_filter]
      have hold : (db.keywords.filter fun k =>
          decide (k.frameId = frame.id) && decide (k.frameId ≠ frame.id)) = [] := by
        rw [List.filter_eq_nil_iff]
        intro k _
        simp
      rw [hold, List.nil_append, List.filter_eq_self]
      intro k hk
      obtain ⟨n, c, -, rfl⟩ := List.mem_mapIdx.mp hk
      simp [cardRow]
  · intro hdu hh
    exact hother (fid, hdu) fun he => hh h (by simp) (congrArg Prod.snd he).symm
  · intro hdu g hh hg
    exact hcardsOther (fid, hdu) g (fun he => hh h (by simp) (congrArg Prod.snd he).symm) hg
  · intro i hi
    refine ⟨fun hdu => ?_, fun hdu g hg => ?_⟩
    · exact hother (i, hdu) fun he => hi (congrArg Prod.fst he)
    · exact hcardsOther (i, hdu) g (fun he => hi (congrArg Prod.fst he)) hg

/-! ### The lookups -/

theorem mem_ids_intern {width : ℕ} {name : Str} {T : Table nameKeying} {i : ℕ} (hi : i ∈ T.ids) :
    i ∈ (intern width name T).2.ids :=
  Table.mem_ids_upsert hi

theorem mem_ids_lookupCamera {reg : EquipmentRegistry} {raw : Str} {T : Table nameKeying} {i : ℕ}
    (hi : i ∈ T.ids) : i ∈ (lookupCamera reg raw T).2.ids := by
  unfold lookupCamera
  split
  · exact hi
  · dsimp only
    split
    · exact hi
    · split
      · exact hi
      · exact mem_ids_intern hi

theorem mem_ids_lookupFilter {reg : EquipmentRegistry} {raw : Str} {T : Table nameKeying} {i : ℕ}
    (hi : i ∈ T.ids) : i ∈ (lookupFilter reg raw T).2.ids := by
  unfold lookupFilter
  split
  · exact hi
  · split
    · exact hi
    · exact mem_ids_intern hi

/-- What a lookup may change of the database: cameras and filters, and these only grow. -/
structure NamesGrown (db d : IndexDb) : Prop where
  files : d.files = db.files
  frames : d.frames = db.frames
  keywords : d.keywords = db.keywords
  operator : OperatorKept db d
  cameras : ∀ i ∈ db.cameras.ids, i ∈ d.cameras.ids
  filters : ∀ i ∈ db.filters.ids, i ∈ d.filters.ids

theorem NamesGrown.refl (db : IndexDb) : NamesGrown db db :=
  ⟨rfl, rfl, rfl, OperatorKept.refl db, fun _ h => h, fun _ h => h⟩

theorem NamesGrown.trans {a b c : IndexDb} (hab : NamesGrown a b) (hbc : NamesGrown b c) :
    NamesGrown a c where
  files := hbc.files.trans hab.files
  frames := hbc.frames.trans hab.frames
  keywords := hbc.keywords.trans hab.keywords
  operator := hab.operator.trans hbc.operator
  cameras i hi := hbc.cameras i (hab.cameras i hi)
  filters i hi := hbc.filters i (hab.filters i hi)

theorem resolveCamera_grows (reg : EquipmentRegistry) (raw : Str) (s : StoreState) :
    NamesGrown s.db (resolveCamera reg raw s).2.db := by
  unfold resolveCamera
  split
  · exact NamesGrown.refl _
  · exact ⟨rfl, rfl, rfl, ⟨rfl, rfl, rfl⟩, fun i hi => mem_ids_lookupCamera hi, fun i hi => hi⟩

theorem resolveFilter_grows (reg : EquipmentRegistry) (raw : Str) (s : StoreState) :
    NamesGrown s.db (resolveFilter reg raw s).2.db := by
  unfold resolveFilter
  split
  · exact NamesGrown.refl _
  · split
    · exact NamesGrown.refl _
    · exact ⟨rfl, rfl, rfl, ⟨rfl, rfl, rfl⟩, fun i hi => hi, fun i hi => mem_ids_lookupFilter hi⟩

theorem lookupIf_grows {look : Str → StoreState → Option ℕ × StoreState}
    (hlook : ∀ raw s, NamesGrown s.db (look raw s).2.db) (raw : Option Str) (s : StoreState) :
    NamesGrown s.db (lookupIf look raw s).2.db := by
  unfold lookupIf
  cases raw with
  | none => exact NamesGrown.refl _
  | some r => exact hlook r s

theorem resolveEquipment_grows (reg : EquipmentRegistry) (f : ResolvedFrame) (s : StoreState) :
    NamesGrown s.db (resolveEquipment reg f s).2.db :=
  (lookupIf_grows (resolveCamera_grows reg) f.instrumeRaw s).trans
    (lookupIf_grows (resolveFilter_grows reg) f.filterRaw _)

/-! ### The statements of the transaction -/

theorem putFrame_ok {db d : IndexDb} {fid : ℕ} {h : Hdu} {f : ResolvedFrame} {ids : EquipmentIds}
    (hp : db.putFrame fid h f ids = .ok d) :
    columnsAccepted f = true ∧ equipmentExists db ids = true ∧ d.files = db.files ∧
      d.frames = db.frames.upsert (fid, h.index) (newFrame fid h f ids) (storedFrame h f ids) ∧
      d.keywords = db.keywords ∧ OperatorKept db d ∧ d.cameras = db.cameras ∧
      d.filters = db.filters := by
  unfold IndexDb.putFrame at hp
  split at hp
  · cases hp
  · rename_i hcols
    split at hp
    · split at hp
      · cases hp
      · rename_i heq
        cases hp
        exact ⟨by simpa using hcols, by simpa using heq, rfl, rfl, rfl, ⟨rfl, rfl, rfl⟩, rfl, rfl⟩
    · cases hp

theorem putCards_ok {db d : IndexDb} {i : ℕ} {cards : List Card}
    (hp : db.putCards i cards = .ok d) :
    cardsAccepted cards = true ∧ d = db.replaceKeywords i (cardRows i cards) := by
  unfold IndexDb.putCards at hp
  split at hp
  · cases hp
  · rename_i hc
    cases hp
    exact ⟨by simpa using hc, rfl⟩

/-- The parts of a store of one HDU that returns. -/
theorem storeHdu_inv {ctx : StoreContext} {fid : ℕ} {h : Hdu} {s t : StoreState}
    (hs : storeHdu ctx fid h s = (.ok (), t)) : ∃ f db frame,
    resolve h ctx.mapping ctx.site = .ok f ∧
    (resolveEquipment ctx.registry f s).2.db.putFrame fid h f
      (resolveEquipment ctx.registry f s).1 = .ok db ∧
    db.frames.get (fid, h.index) = some frame ∧ cardsAccepted h.cards = true ∧
    t = { (resolveEquipment ctx.registry f s).2 with
      db := db.replaceKeywords frame.id (cardRows frame.id h.cards) } := by
  unfold storeHdu at hs
  cases hres : resolve h ctx.mapping ctx.site with
  | error e =>
    rw [hres] at hs
    cases hs
  | ok f =>
    rw [hres] at hs
    dsimp only at hs
    cases hput : (resolveEquipment ctx.registry f s).2.db.putFrame fid h f
        (resolveEquipment ctx.registry f s).1 with
    | error e =>
      rw [hput] at hs
      cases hs
    | ok db =>
      rw [hput] at hs
      dsimp only at hs
      cases hget : db.frames.get (fid, h.index) with
      | none =>
        rw [hget] at hs
        cases hs
      | some frame =>
        rw [hget] at hs
        dsimp only at hs
        cases hcards : db.putCards frame.id h.cards with
        | error e =>
          rw [hcards] at hs
          cases hs
        | ok db' =>
          rw [hcards] at hs
          cases hs
          obtain ⟨haccepted, rfl⟩ := putCards_ok hcards
          exact ⟨f, db, frame, rfl, hput, hget, haccepted, rfl⟩

/-- One HDU, statement by statement. -/
theorem storeHdu_of {ctx : StoreContext} {fid : ℕ} {h : Hdu} {s : StoreState} {f : ResolvedFrame}
    {db : IndexDb} {frame : FrameRow}
    (hres : resolve h ctx.mapping ctx.site = .ok f)
    (hput : (resolveEquipment ctx.registry f s).2.db.putFrame fid h f
      (resolveEquipment ctx.registry f s).1 = .ok db)
    (hget : db.frames.get (fid, h.index) = some frame) (hcards : cardsAccepted h.cards = true) :
    storeHdu ctx fid h s = (.ok (), { (resolveEquipment ctx.registry f s).2 with
      db := db.replaceKeywords frame.id (cardRows frame.id h.cards) }) := by
  have hput' : db.putCards frame.id h.cards =
      .ok (db.replaceKeywords frame.id (cardRows frame.id h.cards)) := by
    unfold IndexDb.putCards
    rw [hcards, if_neg Bool.noConfusion]
  unfold storeHdu
  rw [hres]
  dsimp only
  rw [hput]
  dsimp only
  rw [hget]
  dsimp only
  rw [hput']

theorem keywordsOf_replace (db : IndexDb) (i : ℕ) (cards : List Card) (j : ℕ) :
    (db.replaceKeywords i (cardRows i cards)).keywordsOf j =
      if j = i then cardRows i cards else db.keywordsOf j := by
  show ((db.keywords.filter _) ++ cardRows i cards).filter _ = _
  have hown : ∀ k ∈ cardRows i cards, k.frameId = i := by
    intro k hk
    obtain ⟨n, c, -, rfl⟩ := List.mem_mapIdx.mp hk
    rfl
  rw [List.filter_append, List.filter_filter]
  by_cases hj : j = i
  · rw [if_pos hj, hj]
    have hold : (db.keywords.filter fun k => decide (k.frameId = i) && decide (k.frameId ≠ i)) =
        [] := by
      rw [List.filter_eq_nil_iff]
      intro k _
      simp
    rw [hold, List.nil_append, List.filter_eq_self]
    exact fun k hk => decide_eq_true (hown k hk)
  · rw [if_neg hj]
    have hnew : (cardRows i cards).filter (fun k => decide (k.frameId = j)) = [] := by
      rw [List.filter_eq_nil_iff]
      intro k hk he
      exact hj ((of_decide_eq_true he).symm.trans (hown k hk))
    rw [hnew, List.append_nil]
    refine List.filter_congr fun k _ => ?_
    by_cases hk : k.frameId = j
    · simp [hk, hj]
    · simp [hk]

/-- One HDU stored: its frame, its cards, and perhaps a camera or a filter. -/
theorem storeHdu_ok {ctx : StoreContext} {fid : ℕ} {h : Hdu} {s t : StoreState}
    (hs : storeHdu ctx fid h s = (.ok (), t)) :
    FramesStored ctx [h] fid s.db t.db ∧ t.db.files = s.db.files ∧ OperatorKept s.db t.db ∧
      s.db.frames.next ≤ t.db.frames.next := by
  obtain ⟨f, db, frame, hres, hput, hget, -, rfl⟩ := storeHdu_inv hs
  obtain ⟨-, -, hfiles, hframes, hkeys, hop, -, -⟩ := putFrame_ok hput
  have hgrown := resolveEquipment_grows ctx.registry f s
  have hfr : db.frames = s.db.frames.upsert (fid, h.index)
      (newFrame fid h f (resolveEquipment ctx.registry f s).1)
      (storedFrame h f (resolveEquipment ctx.registry f s).1) := by
    rw [hframes, hgrown.frames]
  refine ⟨framesStored_one frame hres hfr hget ?_, ?_, ?_, ?_⟩
  · show (db.keywords.filter _) ++ _ = _
    rw [hkeys, hgrown.keywords]
  · show db.files = _
    rw [hfiles, hgrown.files]
  · exact hgrown.operator.trans ⟨hop.operator, hop.frameTags, hop.collectionFrames⟩
  · show _ ≤ db.frames.next
    rw [hfr, Table.upsert_next]
    exact Nat.le_succ _

/-- The HDUs of a file stored one after the other. -/
theorem storeHdus_ok {ctx : StoreContext} {fid : ℕ} {hdus : List Hdu} {s t : StoreState}
    (hnd : (hdus.map Hdu.index).Nodup) (hs : storeHdus ctx fid hdus s = (.ok (), t)) :
    FramesStored ctx hdus fid s.db t.db ∧ t.db.files = s.db.files ∧ OperatorKept s.db t.db ∧
      s.db.frames.next ≤ t.db.frames.next := by
  induction hdus generalizing s with
  | nil =>
    cases hs
    exact ⟨framesStored_nil, rfl, OperatorKept.refl _, le_refl _⟩
  | cons h hs' ih =>
    unfold storeHdus at hs
    rw [List.map_cons, List.nodup_cons] at hnd
    cases hone : storeHdu ctx fid h s with
    | mk res u =>
      rw [hone] at hs
      cases res with
      | error e => cases hs
      | ok _ =>
        dsimp only at hs
        obtain ⟨hst, hfiles, hop, hnext⟩ := storeHdu_ok hone
        obtain ⟨hst', hfiles', hop', hnext'⟩ := ih hnd.2 hs
        refine ⟨hst.cons hst' ?_ hnext, hfiles'.trans hfiles, hop.trans hop',
          le_trans hnext hnext'⟩
        intro g hg he
        exact hnd.1 (he ▸ List.mem_map_of_mem hg)

/-! ### The transaction -/

omit [Host] in
theorem imageHdus_nodup (header : RawHeader) : (header.imageHdus.map Hdu.index).Nodup :=
  header.index_nodup.sublist (List.filter_sublist.map _)

/-- The `files` row a store leaves: the old row updated, or a new one under the id `i`. -/
def FileInfo.storedOver (info : FileInfo) (now : Micros) (i : ℕ) (old : Option FileRow) : FileRow :=
  old.elim ((info.newRow now).make i) (info.storedRow now).apply

/-- A store returns exactly when the values are accepted and the HDUs are stored. -/
theorem storeFile_eq_ok_iff {ctx : StoreContext} {now : Micros} {info : FileInfo} {header : RawHeader}
    {s t : StoreState} : storeFile ctx now info header s = (.ok (), t) ↔ info.accepted = true ∧
      storeHdus ctx (info.storedOver now s.db.files.next (s.db.files.get info.key)).id
        header.imageHdus
        { s with db := s.db.upsertFile info.key (info.newRow now) (info.storedRow now) } =
          (.ok (), t) := by
  have hget : (s.db.upsertFile info.key (info.newRow now) (info.storedRow now)).files.get
      info.key = some (info.storedOver now s.db.files.next (s.db.files.get info.key)) :=
    Table.get_upsert_self
  unfold storeFile storeBody
  cases hinfo : info.accepted with
  | false =>
    refine iff_of_false (fun h => ?_) fun h => Bool.noConfusion h.1
    rw [if_pos rfl] at h
    cases h
  | true =>
    rw [if_neg Bool.noConfusion]
    dsimp only
    rw [hget]
    dsimp only
    generalize storeHdus ctx _ header.imageHdus _ = r
    obtain ⟨res, u⟩ := r
    cases res with
    | error e =>
      refine iff_of_false (fun h => ?_) fun h => ?_
      · cases h
      · cases h.2
    | ok _ => exact ⟨fun h => ⟨rfl, h⟩, fun h => h.2⟩

/-- **A store that succeeds.**  The `files` row is upserted, its frames are those of the header,
and nothing else changes. -/
theorem storeFile_ok {ctx : StoreContext} {now : Micros} {info : FileInfo} {header : RawHeader}
    {s t : StoreState} (h : storeFile ctx now info header s = (.ok (), t)) :
    t.db.files = s.db.files.upsert info.key (info.newRow now) (info.storedRow now) ∧
      FramesStored ctx header.imageHdus
        (info.storedOver now s.db.files.next (s.db.files.get info.key)).id s.db t.db ∧
      OperatorKept s.db t.db ∧ s.db.frames.next ≤ t.db.frames.next := by
  obtain ⟨hst, hfiles, hop, hnext⟩ :=
    storeHdus_ok (imageHdus_nodup header) (storeFile_eq_ok_iff.mp h).2
  have hrow : ∀ i, FramesKept i s.db
      (s.db.upsertFile info.key (info.newRow now) (info.storedRow now)) :=
    fun i => framesKept_of_eq rfl rfl
  refine ⟨hfiles, ⟨⟨hst.written, hst.kept, hst.keptCards⟩,
    fun i hi => (hrow i).trans (hst.others i hi)⟩, ?_, hnext⟩
  exact ⟨hop.operator, hop.frameTags, hop.collectionFrames⟩

/-- **A store that fails** leaves every row; only counters and caches move. -/
theorem storeFile_error {ctx : StoreContext} {now : Micros} {info : FileInfo} {header : RawHeader}
    {s t : StoreState} {e : Thrown} (h : storeFile ctx now info header s = (.error e, t)) :
    ∃ u : IndexDb, t.db = s.db.rollback u := by
  unfold storeFile at h
  cases hb : storeBody ctx now info header s with
  | mk res u =>
    rw [hb] at h
    cases res with
    | ok _ => cases h
    | error e =>
      cases h
      exact ⟨u.db, rfl⟩

end Spec

end StarBase
