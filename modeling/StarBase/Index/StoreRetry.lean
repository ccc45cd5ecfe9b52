import StarBase.Index.SharedNames
import StarBase.Index.StoreAgain
import StarBase.Lib.Memo

/-!
# Attempts and the cache

A failed attempt leaves the ids it looked up in the worker's cache, also those of cameras and
filters whose rows went with it.  An attempt that is given such an id fails the foreign key of
`frames`; one that returns was given the ids that a single application gives.

* `NameSide` — the camera and the filter lookups, which go the same way;
* `looks_storeBody` — **PROVED**: the lookups of an attempt, whatever errors strike it;
* `Follows` — two states a store runs through, one with the ids of attempts in its caches;
* `storeHdus_follows` — **PROVED**: such stores leave one and the same state;
* `storeFileTx_atomic` — **PROVED**: attempts that fail change no row, attempts that return are one
  store from the state before with its `AUTO_INCREMENT` counters moved on, and storing the file
  again changes its time stamps only.
-/

namespace StarBase

open Relational Extract Transactions Interning Memo

/-- What the server documents of a `VARCHAR` column: it keeps a string that fits, and an ASCII string
that is not longer than the column fits. -/
structure KeepsNames [Host] : Prop where
  whole : ∀ n s, Host.fits n s = true → Host.truncate n s = s
  ascii : ∀ n (s : Str), s.length ≤ n → (∀ c ∈ s, c.toNat < 128) → Host.fits n s = true

section Retry

variable [Host]

/-! ### Counters -/

/-- The `AUTO_INCREMENT` counters. -/
structure Counters where
  files : ℕ
  frames : ℕ
  cameras : ℕ
  filters : ℕ

/-- The rows as they are, the counters moved on. -/
def IndexDb.advance (db : IndexDb) (c : Counters) : IndexDb :=
  { db with
    files := db.files.bump c.files
    frames := db.frames.bump c.frames
    cameras := db.cameras.bump c.cameras
    filters := db.filters.bump c.filters
    frames_fk := db.frames_fk }

theorem advance_self (db : IndexDb) :
    db.advance ⟨db.files.next, db.frames.next, db.cameras.next, db.filters.next⟩ = db := by
  unfold IndexDb.advance
  simp only [Table.bump_self]

theorem advance_advance (db : IndexDb) (c e : Counters) : (db.advance c).advance e =
    db.advance ⟨max c.files e.files, max c.frames e.frames, max c.cameras e.cameras,
      max c.filters e.filters⟩ := by
  unfold IndexDb.advance
  simp only [Table.bump_bump]

/-! ### The lookups of a store -/

/-- Cameras and filters are looked up alike. -/
inductive NameSide
  | camera
  | filter

namespace NameSide

def desk : NameSide → StoreState → Desk nameKeying Str
  | camera, s => ⟨s.caches.camera, s.db.cameras⟩
  | filter, s => ⟨s.caches.filter, s.db.filters⟩

/-- The state with another cache and table. -/
def put : NameSide → StoreState → Desk nameKeying Str → StoreState
  | camera, s, d => ⟨{ s.db with cameras := d.table }, { s.caches with camera := d.cache }⟩
  | filter, s, d => ⟨{ s.db with filters := d.table }, { s.caches with filter := d.cache }⟩

def ask (reg : EquipmentRegistry) : NameSide → Str → Ask nameKeying
  | camera => cameraAsk reg
  | filter => filterAsk reg

/-- The strings a frame's equipment is looked up by; an empty filter is not. -/
def frameRaws : NameSide → ResolvedFrame → List Str
  | camera, f => f.instrumeRaw.toList
  | filter, f => f.filterRaw.toList.filter (· ≠ [])

/-- Those of a header's image HDUs, in order. -/
def raws (side : NameSide) (ctx : StoreContext) (hdus : List Hdu) : List Str :=
  hdus.flatMap fun h =>
    match resolve h ctx.mapping ctx.site with
    | .ok f => side.frameRaws f
    | .error _ => []

end NameSide

variable {reg : EquipmentRegistry} {ctx : StoreContext} {side : NameSide}

theorem raws_cons (side : NameSide) (ctx : StoreContext) (h : Hdu) (hs : List Hdu) :
    side.raws ctx (h :: hs) = side.raws ctx [h] ++ side.raws ctx hs := by
  simp only [NameSide.raws, List.flatMap_cons, List.flatMap_nil, List.append_nil]

theorem raws_of_resolved (side : NameSide) {h : Hdu} {f : ResolvedFrame}
    (hres : resolve h ctx.mapping ctx.site = .ok f) : side.raws ctx [h] = side.frameRaws f := by
  simp only [NameSide.raws, List.flatMap_cons, List.flatMap_nil, List.append_nil, hres]

theorem mem_raws_iff {hdus : List Hdu} {raw : Str} : raw ∈ side.raws ctx hdus ↔
    ∃ h ∈ hdus, ∃ f, resolve h ctx.mapping ctx.site = .ok f ∧ raw ∈ side.frameRaws f := by
  unfold NameSide.raws
  rw [List.mem_flatMap]
  refine exists_congr fun h => and_congr_right fun _ => ?_
  cases resolve h ctx.mapping ctx.site with
  | error e => simp
  | ok f => simp

theorem resolveCamera_eq (reg : EquipmentRegistry) (raw : Str) (s : StoreState) :
    resolveCamera reg raw s =
      (((NameSide.camera.desk s).look lower (cameraAsk reg) raw).1,
        NameSide.camera.put s ((NameSide.camera.desk s).look lower (cameraAsk reg) raw).2) := by
  unfold resolveCamera
  cases h : s.caches.camera.lookup (lower raw) with
  | some found =>
    have hd : (NameSide.camera.desk s).cache.lookup (lower raw) = some found := h
    rw [look_of_known hd]
    rfl
  | none =>
    have hd : (NameSide.camera.desk s).cache.lookup (lower raw) = none := h
    rw [look_of_unknown hd, lookupCamera_eq]
    rfl

theorem resolveFilter_eq (reg : EquipmentRegistry) {raw : Str} (hraw : raw ≠ []) (s : StoreState) :
    resolveFilter reg raw s =
      (((NameSide.filter.desk s).look lower (filterAsk reg) raw).1,
        NameSide.filter.put s ((NameSide.filter.desk s).look lower (filterAsk reg) raw).2) := by
  unfold resolveFilter
  rw [if_neg hraw]
  cases h : s.caches.filter.lookup (lower raw) with
  | some found =>
    have hd : (NameSide.filter.desk s).cache.lookup (lower raw) = some found := h
    rw [look_of_known hd]
    rfl
  | none =>
    have hd : (NameSide.filter.desk s).cache.lookup (lower raw) = none := h
    rw [look_of_unknown hd, lookupFilter_eq]
    rfl

/-! ### The lookups of an attempt -/

/-- The program leaves the caches and the tables of names alone. -/
def NamesAlone (s t : StoreState) : Prop := ∀ side : NameSide, side.desk t = side.desk s

theorem looks_of_alone (side : NameSide) {β : Type} {m : StoreTx β} (h : Within NamesAlone m) :
    Looks lower (side.ask reg) side.desk [] m := looks_of_same fun s fs => h s fs side

theorem alone_change {f : IndexDb → Except Thrown IndexDb}
    (h : ∀ db d, f db = .ok d → d.cameras = db.cameras ∧ d.filters = db.filters) :
    Within NamesAlone (change f) := by
  refine within_statement (fun _ _ => rfl) fun s side => ?_
  cases hf : f s.db with
  | error e => rfl
  | ok d =>
    obtain ⟨hcam, hfilt⟩ := h _ _ hf
    cases side with
    | camera => exact congrArg (Desk.mk s.caches.camera) hcam
    | filter => exact congrArg (Desk.mk s.caches.filter) hfilt

theorem alone_select {α : Type} (f : IndexDb → α) : Within NamesAlone (select f) :=
  within_statement (fun _ _ => rfl) fun _ _ => rfl

theorem alone_bind {α β : Type} {m : StoreTx α} {f : α → StoreTx β} (hm : Within NamesAlone m)
    (hf : ∀ a, Within NamesAlone (f a)) : Within NamesAlone (m >>= f) :=
  within_bind (fun _ _ _ h₁ h₂ side => (h₂ side).trans (h₁ side)) hm hf

theorem alone_storeCards (cards : List Card) (frame : Option FrameRow) :
    Within NamesAlone (storeCardsTx cards frame) := by
  cases frame with
  | none => exact fun _ _ _ => rfl
  | some frame =>
    refine alone_bind (alone_change fun db d h => ?_) fun _ => ?_
    · cases h
      exact ⟨rfl, rfl⟩
    · split
      · exact fun _ _ _ => rfl
      · refine alone_change fun db d h => ?_
        unfold IndexDb.addCards at h
        split at h
        · cases h
        · cases h
          exact ⟨rfl, rfl⟩

/-- The counters of names do not go back. -/
def NamesNotBack (s t : StoreState) : Prop :=
  ∀ side : NameSide, (side.desk s).table.next ≤ (side.desk t).table.next

theorem notBack_intern {t : NameTable} (ht : t = cameraTable ∨ t = filterTable) (width : ℕ)
    (name : Str) : Within NamesNotBack (internTx t width name) := by
  refine within_bind (fun _ _ _ h₁ h₂ side => Nat.le_trans (h₁ side) (h₂ side)) ?_ fun _ =>
    within_statement (fun _ _ => Nat.le_refl _) fun _ _ => Nat.le_refl _
  refine within_statement (fun _ _ => Nat.le_refl _) fun s side => ?_
  rcases ht with rfl | rfl <;> cases side
  · show _ ≤ (s.db.cameras.upsert _ _ _).next
    rw [Table.upsert_next]
    exact Nat.le_succ _
  · exact Nat.le_refl _
  · exact Nat.le_refl _
  · show _ ≤ (s.db.filters.upsert _ _ _).next
    rw [Table.upsert_next]
    exact Nat.le_succ _

theorem notBack_lookupCamera (reg : EquipmentRegistry) (raw : Str) :
    Within NamesNotBack (lookupCameraTx reg raw) :=
  lookupCameraTx_rule (fun _ _ _ _ => Nat.le_refl _) (notBack_intern (Or.inl rfl)) reg raw

theorem notBack_lookupFilter (reg : EquipmentRegistry) (raw : Str) :
    Within NamesNotBack (lookupFilterTx reg raw) :=
  lookupFilterTx_rule (fun _ _ _ _ => Nat.le_refl _) (notBack_intern (Or.inr rfl)) reg raw

theorem looks_cached (side : NameSide) {cached : Caches → Option (Option ℕ)}
    {remember : Caches → Option ℕ → Caches} {look : StoreTx (Option ℕ)} {raw : Str}
    (hlawful : Lawful (cachedTx cached remember look))
    (hquiet : ∀ s, cachedTx cached remember look s [] =
      ⟨.ok ((side.desk s).look lower (side.ask reg) raw).1,
        side.put s ((side.desk s).look lower (side.ask reg) raw).2, []⟩)
    (hsame : Within CachesSame look) (hback : Within NamesNotBack look) :
    Looks lower (side.ask reg) side.desk [raw] (cachedTx cached remember look) := by
  intro s fs
  have hput : ∀ d, side.desk (side.put s d) = d := by
    intro d
    cases side <;> rfl
  cases hres : (cachedTx cached remember look s fs).result with
  | ok id =>
    have hrun := hlawful.quiet hres
    rw [hquiet] at hrun
    have hstore : (cachedTx cached remember look s fs).store =
        side.put s ((side.desk s).look lower (side.ask reg) raw).2 :=
      (congrArg Outcome.store hrun).symm
    have hdesk : side.desk (cachedTx cached remember look s fs).store =
        (side.desk s).lookAll lower (side.ask reg) [raw] := by
      rw [hstore, hput]
      rfl
    exact ⟨⟨[raw], List.prefix_rfl, congrArg Desk.cache hdesk, by rw [hdesk]⟩, fun _ _ => hdesk⟩
  | error e =>
    refine ⟨⟨[], List.nil_prefix, ?_⟩, fun _ h => nomatch h⟩
    unfold cachedTx at hres ⊢
    rw [bind_of (step_apply s fs _)] at hres ⊢
    cases hknown : cached s.caches with
    | some found =>
      rw [hknown] at hres
      cases hres
    | none =>
      rw [hknown] at hres
      dsimp only at hres ⊢
      rw [bind_apply] at hres ⊢
      unfold Outcome.andThen at hres ⊢
      cases hlook : (look s fs).result with
      | ok id =>
        rw [hlook] at hres
        cases hres
      | error e' =>
        have hcaches : (look s fs).store.caches = s.caches := hsame s fs
        refine ⟨?_, hback s fs side⟩
        cases side with
        | camera => exact congrArg Caches.camera hcaches
        | filter => exact congrArg Caches.filter hcaches

theorem looks_resolveCamera (reg : EquipmentRegistry) (raw : Str) :
    Looks lower (cameraAsk reg) NameSide.camera.desk [raw] (resolveCameraTx reg raw) := by
  refine looks_cached .camera (lawful_resolveCamera reg raw) (fun s => ?_)
    (lookupCamera_caches reg raw) (notBack_lookupCamera reg raw)
  refine (resolveCameraTx_quiet reg raw s).trans ?_
  rw [resolveCamera_eq]
  rfl

theorem looks_resolveFilter (reg : EquipmentRegistry) {raw : Str} (hraw : raw ≠ []) :
    Looks lower (filterAsk reg) NameSide.filter.desk [raw] (resolveFilterTx reg raw) := by
  have hlawful := lawful_resolveFilter reg raw
  have hquiet := resolveFilterTx_quiet reg raw
  unfold resolveFilterTx at hlawful hquiet ⊢
  rw [if_neg hraw] at hlawful hquiet ⊢
  refine looks_cached .filter hlawful (fun s => ?_) (lookupFilter_caches reg raw)
    (notBack_lookupFilter reg raw)
  refine (hquiet s).trans ?_
  rw [resolveFilter_eq reg hraw]
  rfl

/-- The program leaves this side alone. -/
def Untouched (side : NameSide) (s t : StoreState) : Prop := side.desk t = side.desk s

theorem untouched_bind {α β : Type} {m : StoreTx α} {f : α → StoreTx β}
    (hm : Within (Untouched side) m) (hf : ∀ a, Within (Untouched side) (f a)) :
    Within (Untouched side) (m >>= f) :=
  within_bind (R := Untouched side) (fun _ _ _ h₁ h₂ => Eq.trans h₂ h₁) hm hf

theorem untouched_statement {α : Type} {f : StoreState → Except StoreError α × StoreState}
    (h : ∀ s, Untouched side s (f s).2) : Within (Untouched side) (statement f) :=
  within_statement (R := Untouched side) (fun _ => rfl) h

theorem untouched_cached {cached : Caches → Option (Option ℕ)}
    {remember : Caches → Option ℕ → Caches} {look : StoreTx (Option ℕ)}
    (hlook : Within (Untouched side) look)
    (hremember : ∀ s id, Untouched side s { s with caches := remember s.caches id }) :
    Within (Untouched side) (cachedTx cached remember look) := by
  refine untouched_bind (fun _ _ => rfl) fun known => ?_
  cases known with
  | some found => exact fun _ _ => rfl
  | none => exact untouched_bind hlook fun id => within_step fun s => hremember s id

theorem filter_untouched (reg : EquipmentRegistry) (raw : Str) :
    Within (Untouched .filter) (resolveCameraTx reg raw) := by
  refine untouched_cached (lookupCameraTx_rule (fun _ _ _ => rfl) (fun width name => ?_) reg raw)
    fun _ _ => rfl
  exact untouched_bind (untouched_statement fun _ => rfl) fun _ => untouched_statement fun _ => rfl

theorem camera_untouched (reg : EquipmentRegistry) (raw : Str) :
    Within (Untouched .camera) (resolveFilterTx reg raw) := by
  unfold resolveFilterTx
  split
  · exact fun _ _ => rfl
  · refine untouched_cached (lookupFilterTx_rule (fun _ _ _ => rfl) (fun width name => ?_) reg raw)
      fun _ _ => rfl
    exact untouched_bind (untouched_statement fun _ => rfl) fun _ =>
      untouched_statement fun _ => rfl

/-- The ids of a frame whose camera and filter have been looked up. -/
def idsOf (reg : EquipmentRegistry) (f : ResolvedFrame) (cam filt : Option ℕ) : EquipmentIds where
  cameraId := cam
  rigId := (matchRig reg cam f.focalLenMm).map RigRow.id
  filterId := filt
  siteId := ((matchRig reg cam f.focalLenMm).bind RigRow.siteId).orElse fun _ => reg.defaultSiteId

theorem looks_lookupCamera (reg : EquipmentRegistry) (raw : Option Str) :
    Looks lower (cameraAsk reg) NameSide.camera.desk raw.toList
      (lookupIfTx (resolveCameraTx reg) raw) := by
  cases raw with
  | none => exact looks_pure none
  | some r => exact looks_resolveCamera reg r

theorem looks_lookupFilter (reg : EquipmentRegistry) (raw : Option Str) :
    Looks lower (filterAsk reg) NameSide.filter.desk (raw.toList.filter (· ≠ []))
      (lookupIfTx (resolveFilterTx reg) raw) := by
  cases raw with
  | none => exact looks_pure none
  | some r =>
    by_cases hr : r = []
    · rw [hr]
      exact looks_pure none
    · have hone : (some r).toList.filter (· ≠ []) = [r] := by simp [hr]
      rw [hone]
      exact looks_resolveFilter reg hr

theorem looks_resolveEquipment (side : NameSide) (reg : EquipmentRegistry) (f : ResolvedFrame) :
    Looks lower (side.ask reg) side.desk (side.frameRaws f) (resolveEquipmentTx reg f) := by
  cases side with
  | camera =>
    have hfilter : Within (Untouched .camera) (lookupIfTx (resolveFilterTx reg) f.filterRaw) := by
      cases f.filterRaw with
      | none => exact fun _ _ => rfl
      | some r => exact camera_untouched reg r
    have h := looks_bind (looks_lookupCamera reg f.instrumeRaw) fun cam =>
      looks_bind (looks_of_same hfilter) fun filt => looks_pure (idsOf reg f cam filt)
    rw [List.append_nil, List.append_nil] at h
    exact h
  | filter =>
    have hcamera : Within (Untouched .filter) (lookupIfTx (resolveCameraTx reg) f.instrumeRaw) := by
      cases f.instrumeRaw with
      | none => exact fun _ _ => rfl
      | some r => exact filter_untouched reg r
    have h := looks_bind (looks_of_same hcamera) fun cam =>
      looks_bind (looks_lookupFilter reg f.filterRaw) fun filt => looks_pure (idsOf reg f cam filt)
    rw [List.nil_append, List.append_nil] at h
    exact h

theorem looks_storeHdu (side : NameSide) (ctx : StoreContext) (fid : ℕ) (h : Hdu) :
    Looks lower (side.ask ctx.registry) side.desk (side.raws ctx [h]) (storeHduTx ctx fid h) := by
  unfold storeHduTx
  cases hres : resolve h ctx.mapping ctx.site with
  | error e => exact fun _ _ => ⟨⟨[], List.nil_prefix, rfl, Nat.le_refl _⟩, fun _ h => nomatch h⟩
  | ok f =>
    rw [raws_of_resolved side hres]
    have hwrite : ∀ ids, Within NamesAlone (change (fun db => db.putFrame fid h f ids) >>= fun _ =>
        select (fun db => db.frames.get (fid, h.index)) >>= fun frame =>
          storeCardsTx h.cards frame) := fun ids =>
      alone_bind
        (alone_change fun db d hput => by
          obtain ⟨-, -, -, -, -, -, hcam, hfilt⟩ := putFrame_ok hput
          exact ⟨hcam, hfilt⟩)
        fun _ => alone_bind (alone_select _) fun frame => alone_storeCards h.cards frame
    have hrest := looks_bind (looks_resolveEquipment side ctx.registry f) fun ids =>
      looks_of_alone side (hwrite ids)
    rw [List.append_nil] at hrest
    exact hrest

theorem looks_storeHdus (side : NameSide) (ctx : StoreContext) (fid : ℕ) (hdus : List Hdu) :
    Looks lower (side.ask ctx.registry) side.desk (side.raws ctx hdus)
      (storeHdusTx ctx fid hdus) := by
  induction hdus with
  | nil => exact looks_pure ()
  | cons h hs ih =>
    rw [raws_cons]
    exact looks_bind (looks_storeHdu side ctx fid h) fun _ => ih

/-- **An attempt** looks the names of the header up in their order, as far as it gets. -/
theorem looks_storeBody (side : NameSide) (ctx : StoreContext) (now : Micros) (info : FileInfo)
    (header : RawHeader) :
    Looks lower (side.ask ctx.registry) side.desk (side.raws ctx header.imageHdus)
      (storeBodyTx ctx now info header) := by
  have hput : Within NamesAlone (change fun db => db.putFile now info) := by
    refine alone_change fun db d h => ?_
    unfold IndexDb.putFile at h
    split at h
    · cases h
    · cases h
      exact ⟨rfl, rfl⟩
  refine looks_bind (looks_of_alone side hput) fun _ =>
    looks_bind (looks_of_alone side (alone_select _)) fun row => ?_
  cases row with
  | none => exact looks_throw _ _
  | some row => exact looks_storeHdus side ctx row.id header.imageHdus

/-! ### Attempts that fail -/

variable {now : Micros} {info : FileInfo} {header : RawHeader} {s t : StoreState}
  {fs : Schedule StoreError}

/-- What failed attempts of a store leave of `s`. -/
structure AttemptsLeft (ctx : StoreContext) (header : RawHeader) (s t : StoreState) : Prop where
  rows : ∃ c, t.db = s.db.advance c
  names : ∀ side : NameSide,
    (∀ raw ∈ side.raws ctx header.imageHdus, ReadBack (side.ask ctx.registry raw)) →
      Left lower (side.ask ctx.registry) (side.raws ctx header.imageHdus) (side.desk s) (side.desk t)

theorem AttemptsLeft.refl (s : StoreState) : AttemptsLeft ctx header s s :=
  ⟨⟨_, (advance_self s.db).symm⟩, fun _ _ => Left.refl _ _ _ _⟩

theorem storeFileOnce_advance {e : StoreError}
    (he : (storeFileOnce ctx now info header s fs).result = .error e) :
    ∃ c, (storeFileOnce ctx now info header s fs).store.db = s.db.advance c :=
  transaction_error (Q := fun _ _ => True) (R := fun s t => ∃ c, t.db = s.db.advance c)
    (fun _ => trivial) (fun _ _ _ _ _ => trivial) (fun _ _ => trivial)
    (fun s => ⟨_, (advance_self s.db).symm⟩)
    (fun _ t _ => ⟨⟨t.db.files.next, t.db.frames.next, t.db.cameras.next, t.db.filters.next⟩, rfl⟩)
    he

/-- **Another attempt** that fails leaves what failed attempts leave. -/
theorem AttemptsLeft.again (h : AttemptsLeft ctx header s t) {e : StoreError}
    (he : (storeFileOnce ctx now info header t fs).result = .error e) :
    AttemptsLeft ctx header s (storeFileOnce ctx now info header t fs).store := by
  obtain ⟨c, hc⟩ := h.rows
  obtain ⟨c', hc'⟩ := storeFileOnce_advance he
  refine ⟨⟨_, by rw [hc', hc, advance_advance]⟩, fun side hback => ?_⟩
  obtain ⟨P, hP, hrolled⟩ := rolledBack_of_error (looks_storeBody side ctx now info header)
    (fun s t => by cases side <;> rfl) (fun s t => by cases side <;> rfl)
    (fun s t => by cases side <;> exact Nat.le_max_right _ _) he
  exact (h.names side hback).again hback hP hrolled

/-! ### Ids that are gone -/

theorem storeHdu_desk (side : NameSide) {fid : ℕ} {h : Hdu}
    (hs : storeHdu ctx fid h s = (.ok (), t)) :
    side.desk t = (side.desk s).lookAll lower (side.ask ctx.registry) (side.raws ctx [h]) := by
  have hsame := storeHduTx_quiet ctx fid h s
  have hlooks := (looks_storeHdu side ctx fid h s []).2 ()
  rw [hs] at hsame
  generalize storeHduTx ctx fid h s [] = o at hsame hlooks
  cases hsame
  exact hlooks rfl

/-- The id of a lookup is that of a row, when the frame is written. -/
theorem mem_ids_of_lookup {fid : ℕ} {h : Hdu} {f : ResolvedFrame} {raw : Str} {i : ℕ}
    (hs : storeHdu ctx fid h s = (.ok (), t)) (hres : resolve h ctx.mapping ctx.site = .ok f)
    (hraw : raw ∈ side.frameRaws f)
    (hknown : (side.desk s).cache.lookup (lower raw) = some (some i)) :
    i ∈ (side.desk t).table.ids := by
  obtain ⟨f', db, frame, hres', hput, -, -, rfl⟩ := storeHdu_inv hs
  obtain rfl : f = f' := Except.ok.inj (hres.symm.trans hres')
  obtain ⟨-, hequip, -, -, -, -, hcam, hfilt⟩ := putFrame_ok hput
  unfold equipmentExists at hequip
  simp only [Bool.and_eq_true, Option.all_eq_true, List.contains_iff_mem] at hequip
  obtain ⟨⟨⟨hc, hf⟩, -⟩, -⟩ := hequip
  cases side with
  | camera =>
    have hi := Option.mem_toList.mp hraw
    have hid : (resolveEquipment ctx.registry f s).1.cameraId = some i := by
      show (lookupIf (resolveCamera ctx.registry) f.instrumeRaw s).1 = some i
      rw [hi]
      show (resolveCamera ctx.registry raw s).1 = some i
      rw [resolveCamera_hit hknown]
    show i ∈ db.cameras.ids
    rw [hcam]
    exact hc i hid
  | filter =>
    obtain ⟨hi, hne⟩ := List.mem_filter.mp hraw
    have hne' : raw ≠ [] := of_decide_eq_true hne
    have hsame : ∀ r, NameSide.filter.desk (lookupIf (resolveCamera ctx.registry) r s).2 =
        NameSide.filter.desk s := by
      intro r
      cases r with
      | none => rfl
      | some r =>
        show NameSide.filter.desk (resolveCamera ctx.registry r s).2 = _
        rw [resolveCamera_eq]
        rfl
    have hid : (resolveEquipment ctx.registry f s).1.filterId = some i := by
      show (lookupIf (resolveFilter ctx.registry) f.filterRaw
        (lookupIf (resolveCamera ctx.registry) f.instrumeRaw s).2).1 = some i
      rw [Option.mem_toList.mp hi]
      show (resolveFilter ctx.registry raw _).1 = some i
      rw [resolveFilter_hit hne']
      exact (congrArg (fun d => d.cache.lookup (lower raw)) (hsame _)).trans hknown
    show i ∈ db.filters.ids
    rw [hfilt]
    exact hf i hid

/-- **A store that returns** was given no id of a row that went. -/
theorem storeHdus_not_gone (side : NameSide) {fid : ℕ} {hdus : List Hdu} {raw : Str} {i : ℕ} :
    ∀ {s t : StoreState}, storeHdus ctx fid hdus s = (.ok (), t) → raw ∈ side.raws ctx hdus →
      (side.desk s).cache.lookup (lower raw) = some (some i) → ¬ Gone i (side.desk s).table := by
  induction hdus with
  | nil => exact fun _ hraw => absurd hraw List.not_mem_nil
  | cons h hs ih =>
    intro s t hrun hraw hknown hgone
    unfold storeHdus at hrun
    cases hone : storeHdu ctx fid h s with
    | mk res u =>
      rw [hone] at hrun
      cases res with
      | error e => cases hrun
      | ok _ =>
        have hdesk := storeHdu_desk side hone
        have hgone' : Gone i (side.desk u).table := by
          rw [hdesk]
          exact hgone.lookAll _
        rw [raws_cons, List.mem_append] at hraw
        rcases hraw with hraw | hraw
        · obtain ⟨g, hg, f, hres, hmem⟩ := mem_raws_iff.mp hraw
          obtain rfl : g = h := List.mem_singleton.mp hg
          exact hgone'.1 (mem_ids_of_lookup hone hres hmem hknown)
        · refine ih hrun hraw ?_ hgone'
          rw [hdesk]
          exact known_lookAll hknown _

/-! ### One state that follows another -/

/-- `b` is `a` with names that are still to be looked up as in `a`. -/
structure Follows (reg : EquipmentRegistry) (cams filts : List Str) (b a : StoreState) : Prop where
  db : b.db = { a.db with cameras := b.db.cameras, filters := b.db.filters }
  camera : Ahead lower (cameraAsk reg) cams (NameSide.camera.desk b) (NameSide.camera.desk a)
  filter : Ahead lower (filterAsk reg) filts (NameSide.filter.desk b) (NameSide.filter.desk a)

variable {a b : StoreState} {cams filts : List Str}

theorem Follows.lookupCamera {raw : Option Str}
    (h : Follows reg (raw.toList ++ cams) filts b a) :
    (lookupIf (resolveCamera reg) raw b).1 = (lookupIf (resolveCamera reg) raw a).1 ∧
      Follows reg cams filts (lookupIf (resolveCamera reg) raw b).2
        (lookupIf (resolveCamera reg) raw a).2 := by
  cases raw with
  | none => exact ⟨rfl, h⟩
  | some raw =>
    obtain ⟨hsame, hahead⟩ := Ahead.look h.camera
    show (resolveCamera reg raw b).1 = (resolveCamera reg raw a).1 ∧
      Follows reg cams filts (resolveCamera reg raw b).2 (resolveCamera reg raw a).2
    rw [resolveCamera_eq, resolveCamera_eq]
    refine ⟨hsame, ?_, hahead, h.filter⟩
    show ({ b.db with cameras := _ } : IndexDb) = _
    rw [h.db]
    rfl

theorem Follows.lookupFilter {raw : Option Str}
    (h : Follows reg cams (raw.toList.filter (· ≠ []) ++ filts) b a) :
    (lookupIf (resolveFilter reg) raw b).1 = (lookupIf (resolveFilter reg) raw a).1 ∧
      Follows reg cams filts (lookupIf (resolveFilter reg) raw b).2
        (lookupIf (resolveFilter reg) raw a).2 := by
  cases raw with
  | none => exact ⟨rfl, h⟩
  | some raw =>
    show (resolveFilter reg raw b).1 = (resolveFilter reg raw a).1 ∧
      Follows reg cams filts (resolveFilter reg raw b).2 (resolveFilter reg raw a).2
    by_cases hraw : raw = []
    · subst hraw
      exact ⟨rfl, h⟩
    · have hone : (some raw).toList.filter (· ≠ []) = [raw] := by simp [hraw]
      have hfilter := h.filter
      rw [hone] at hfilter
      obtain ⟨hsame, hahead⟩ := Ahead.look hfilter
      rw [resolveFilter_eq reg hraw, resolveFilter_eq reg hraw]
      refine ⟨hsame, ?_, h.camera, hahead⟩
      show ({ b.db with filters := _ } : IndexDb) = _
      rw [h.db]
      rfl

theorem Follows.resolveEquipment {f : ResolvedFrame}
    (h : Follows reg (NameSide.camera.frameRaws f ++ cams) (NameSide.filter.frameRaws f ++ filts)
      b a) : (resolveEquipment reg f b).1 = (StarBase.resolveEquipment reg f a).1 ∧
      Follows reg cams filts (StarBase.resolveEquipment reg f b).2
        (StarBase.resolveEquipment reg f a).2 := by
  obtain ⟨hcam, hfollows⟩ := h.lookupCamera
  obtain ⟨hfilt, hfollows⟩ := hfollows.lookupFilter
  refine ⟨?_, hfollows⟩
  unfold StarBase.resolveEquipment
  dsimp only
  rw [hcam, hfilt]

/-- The upsert of a frame reads no counter of names. -/
theorem putFrame_names {db d : IndexDb} {fid : ℕ} {h : Hdu} {f : ResolvedFrame}
    {ids : EquipmentIds} {C F : Table nameKeying} (hC : C.rows = db.cameras.rows)
    (hF : F.rows = db.filters.rows) (hput : db.putFrame fid h f ids = .ok d) :
    ({ db with cameras := C, filters := F } : IndexDb).putFrame fid h f ids =
      .ok { d with cameras := C, filters := F } := by
  have hsame : equipmentExists { db with cameras := C, filters := F } ids = equipmentExists db ids := by
    unfold equipmentExists Table.ids
    rw [hC, hF]
  unfold IndexDb.putFrame at hput ⊢
  split at hput
  · cases hput
  · next hcols =>
    rw [if_neg hcols]
    split at hput
    · next hfile =>
      have hfile' : fid ∈ ({ db with cameras := C, filters := F } : IndexDb).files.ids := hfile
      rw [dif_pos hfile', hsame]
      split at hput
      · cases hput
      · next hequip =>
        rw [if_neg hequip]
        cases hput
        rfl
    · cases hput

/-- Storing an HDU in both states leaves them one behind the other. -/
theorem storeHdu_follows {fid : ℕ} {h : Hdu} {a' : StoreState}
    (hs : storeHdu ctx fid h a = (.ok (), a'))
    (hfollows : Follows ctx.registry (NameSide.camera.raws ctx [h] ++ cams)
      (NameSide.filter.raws ctx [h] ++ filts) b a) :
    ∃ b', storeHdu ctx fid h b = (.ok (), b') ∧ Follows ctx.registry cams filts b' a' := by
  obtain ⟨f, db, frame, hres, hput, hget, hcards, rfl⟩ := storeHdu_inv hs
  rw [raws_of_resolved .camera hres, raws_of_resolved .filter hres] at hfollows
  obtain ⟨hids, hafter⟩ := hfollows.resolveEquipment
  have hput' := putFrame_names hafter.camera.rows.symm hafter.filter.rows.symm hput
  have hdb : ({ (resolveEquipment ctx.registry f a).2.db with
      cameras := (resolveEquipment ctx.registry f b).2.db.cameras
      filters := (resolveEquipment ctx.registry f b).2.db.filters } : IndexDb) =
      (resolveEquipment ctx.registry f b).2.db := hafter.db.symm
  obtain ⟨-, -, -, -, -, -, hcam, hfilt⟩ := putFrame_ok hput
  rw [← hids] at hput'
  refine ⟨_, storeHdu_of hres ((congrArg (fun d : IndexDb => d.putFrame fid h f _) hdb).symm.trans
    hput') hget hcards, rfl, ?_, ?_⟩
  · have hahead := hafter.camera
    show Ahead lower _ cams _ ⟨_, db.cameras⟩
    rw [hcam]
    exact hahead
  · have hahead := hafter.filter
    show Ahead lower _ filts _ ⟨_, db.filters⟩
    rw [hfilt]
    exact hahead

/-- **Stores from both states** leave one and the same. -/
theorem storeHdus_follows {fid : ℕ} {hdus : List Hdu} :
    ∀ {a a' b : StoreState}, storeHdus ctx fid hdus a = (.ok (), a') →
      Follows ctx.registry (NameSide.camera.raws ctx hdus) (NameSide.filter.raws ctx hdus) b a →
      storeHdus ctx fid hdus b = (.ok (), a') := by
  induction hdus with
  | nil =>
    intro a a' b hrun hfollows
    cases hrun
    have hcam := hfollows.camera.eq_of_nil
    have hfilt := hfollows.filter.eq_of_nil
    have hcameras : b.db.cameras = a.db.cameras := congrArg Desk.table hcam
    have hfilters : b.db.filters = a.db.filters := congrArg Desk.table hfilt
    have hdb : b.db = a.db := by
      rw [hfollows.db, hcameras, hfilters]
    have hcaches : b.caches = a.caches := by
      have hc : b.caches.camera = a.caches.camera := congrArg Desk.cache hcam
      have hf : b.caches.filter = a.caches.filter := congrArg Desk.cache hfilt
      calc b.caches = ⟨b.caches.camera, b.caches.filter⟩ := rfl
        _ = a.caches := by rw [hc, hf]
    show (Except.ok (), b) = (Except.ok (), a)
    rw [show b = ⟨b.db, b.caches⟩ from rfl, hdb, hcaches]
  | cons h hs ih =>
    intro a a' b hrun hfollows
    unfold storeHdus at hrun ⊢
    cases hone : storeHdu ctx fid h a with
    | mk res u =>
      rw [hone] at hrun
      cases res with
      | error e => cases hrun
      | ok _ =>
        rw [raws_cons .camera, raws_cons .filter] at hfollows
        obtain ⟨v, hv, hfollows'⟩ := storeHdu_follows hone hfollows
        rw [hv]
        exact ih hrun hfollows'

/-! ### Names that are read back -/

omit [Host] in
/-- A model has at most seven ASCII characters. -/
theorem model_ascii (rest : Str) :
    ("ASI".toList ++ (rest.takeWhile Char.isDigit).take 4).length ≤ 64 ∧
      ∀ c ∈ "ASI".toList ++ (rest.takeWhile Char.isDigit).take 4, c.toNat < 128 := by
  constructor
  · have htake : ((rest.takeWhile Char.isDigit).take 4).length ≤ 4 := List.length_take_le _ _
    have hasi : "ASI".toList.length = 3 := rfl
    rw [List.length_append]
    omega
  · intro c hc
    rcases List.mem_append.mp hc with hc | hc
    · have hall : ∀ c ∈ "ASI".toList, c.toNat < 128 := by simp
      exact hall c hc
    · have hdigit := List.mem_takeWhile_imp (List.mem_of_mem_take hc)
      unfold Char.isDigit at hdigit
      simp only [Bool.and_eq_true, decide_eq_true_eq] at hdigit
      have h57 : c.val.toNat ≤ 57 := hdigit.2
      show c.val.toNat < 128
      omega

omit [Host] in
theorem baseModelAt_ascii {s m : Str} (h : baseModelAt s = some m) :
    m.length ≤ 64 ∧ ∀ c ∈ m, c.toNat < 128 := by
  have hmodel : ∀ rest : Str, (if ((rest.takeWhile Char.isDigit).take 4).length < 3 then none
      else some ("ASI".toList ++ (rest.takeWhile Char.isDigit).take 4)) = some m →
      m.length ≤ 64 ∧ ∀ c ∈ m, c.toNat < 128 := by
    intro rest hrest
    split at hrest
    · cases hrest
    · rw [← Option.some.inj hrest]
      exact model_ascii rest
  unfold baseModelAt at h
  split at h
  · exact hmodel _ h
  · cases h

omit [Host] in
theorem baseModel_ascii (s : Str) :
    (baseModel s).length ≤ 64 ∧ ∀ c ∈ baseModel s, c.toNat < 128 := by
  induction s with
  | nil => exact ⟨Nat.zero_le _, fun c hc => absurd hc List.not_mem_nil⟩
  | cons c cs ih =>
    show ((baseModelAt (c :: cs)).getD (baseModel cs)).length ≤ 64 ∧ _
    cases h : baseModelAt (c :: cs) with
    | none =>
      have hsame : baseModel (c :: cs) = baseModel cs := by
        show (baseModelAt (c :: cs)).getD _ = _
        rw [h]
        rfl
      rw [hsame]
      exact ih
    | some m =>
      have hsame : baseModel (c :: cs) = m := by
        show (baseModelAt (c :: cs)).getD _ = _
        rw [h]
        rfl
      rw [hsame]
      exact baseModelAt_ascii h

theorem readBack_camera (hkeeps : KeepsNames) (reg : EquipmentRegistry) (raw : Str) :
    ReadBack (cameraAsk reg raw) := by
  unfold cameraAsk
  split
  · trivial
  · dsimp only
    split
    · trivial
    · split
      · trivial
      · obtain ⟨hlength, hascii⟩ := baseModel_ascii raw
        show Host.collate _ = Host.collate (Host.truncate 64 (baseModel raw))
        rw [hkeeps.whole _ _ (hkeeps.ascii _ _ hlength hascii)]

theorem readBack_filter (hkeeps : KeepsNames) (reg : EquipmentRegistry) {raw : Str}
    (hfits : Host.fits 32 raw = true) : ReadBack (filterAsk reg raw) := by
  unfold filterAsk
  split
  · trivial
  · split
    · trivial
    · show Host.collate _ = Host.collate (Host.truncate 32 raw)
      rw [hkeeps.whole _ _ hfits]

/-- The names of a header that was stored are read back. -/
theorem readBack_of_stored (hkeeps : KeepsNames) {fid : ℕ}
    (hs : storeHdus ctx fid header.imageHdus s = (.ok (), t)) :
    ∀ raw ∈ side.raws ctx header.imageHdus, ReadBack (side.ask ctx.registry raw) := by
  intro raw hraw
  obtain ⟨h, hh, g, hres, hmem⟩ := mem_raws_iff.mp hraw
  obtain ⟨f, ids, row, hset⟩ := (storeHdus_settled (imageHdus_nodup header) hs).1 h hh
  obtain rfl : g = f := Except.ok.inj (hres.symm.trans hset.resolved)
  cases side with
  | camera => exact readBack_camera hkeeps ctx.registry raw
  | filter =>
    refine readBack_filter hkeeps ctx.registry ?_
    have hcols := hset.columns
    unfold columnsAccepted at hcols
    simp only [Bool.and_eq_true] at hcols
    have hfilter : textFits 32 g.filterRaw = true := by tauto
    rw [Option.mem_toList.mp (List.mem_filter.mp hmem).1] at hfilter
    exact hfilter

/-! ### Attempts that return -/

variable {clock : ℕ → Micros}

/-- **Attempts that return** are one store from the state before, its counters moved on. -/
theorem storeFileTx_once (hkeeps : KeepsNames)
    (h : (storeFileTx ctx clock info header s fs).result = .ok ()) :
    ∃ k c, storeFile ctx (clock k) info header { s with db := s.db.advance c } =
      (.ok (), (storeFileTx ctx clock info header s fs).store) := by
  obtain ⟨k, t, gs, hattempts, hres, hstore⟩ := retry_ok
    (R := fun u v => AttemptsLeft ctx header s u → AttemptsLeft ctx header s v)
    (fun _ h => h) (fun _ _ _ h₁ h₂ h => h₂ (h₁ h)) (fun _ _ _ _ he hu => hu.again he) h
  obtain ⟨⟨c, hdb⟩, hnames⟩ := hattempts (AttemptsLeft.refl s)
  have hrun : storeFile ctx (clock k) info header t =
      (.ok (), (storeFileTx ctx clock info header s fs).store) := by
    rw [storeFileOnce_ok hres, hstore]
    rfl
  obtain ⟨haccepted, hhdus⟩ := storeFile_eq_ok_iff.mp hrun
  have hahead : ∀ side : NameSide, ∃ n, Ahead lower (side.ask ctx.registry)
      (side.raws ctx header.imageHdus) ((side.desk s).moved n) (side.desk t) := by
    intro side
    have hleft := hnames side (readBack_of_stored hkeeps hhdus)
    rcases hleft.memory with ⟨raw, hraw, i, hknown, hgone⟩ | ⟨P, n, hP, he⟩
    · refine absurd ?_ (storeHdus_not_gone side (i := i) hhdus hraw ?_)
      · cases side <;> exact hgone
      · cases side <;> exact hknown
    · exact ⟨n, P, hP, he, hleft.rows⟩
  obtain ⟨nc, hcam⟩ := hahead .camera
  obtain ⟨nf, hfilt⟩ := hahead .filter
  obtain ⟨db, caches⟩ := t
  obtain rfl : db = s.db.advance c := hdb
  refine ⟨k, ⟨c.files, c.frames, s.db.cameras.next + nc, s.db.filters.next + nf⟩,
    storeFile_eq_ok_iff.mpr ⟨haccepted, ?_⟩⟩
  exact storeHdus_follows hhdus ⟨rfl, hcam, hfilt⟩

/-- **Attempts are atomic, and storing again changes time stamps only.** -/
theorem storeFileTx_atomic (hkeeps : KeepsNames) (ctx : StoreContext) (clock : ℕ → Micros)
    (info : FileInfo) (header : RawHeader) (s : StoreState) (fs : Schedule StoreError) :
    (∀ e, (storeFileTx ctx clock info header s fs).result = .error e →
      RowsKept s.db (storeFileTx ctx clock info header s fs).store.db) ∧
    ((storeFileTx ctx clock info header s fs).result = .ok () →
      (∃ k c, storeFile ctx (clock k) info header { s with db := s.db.advance c } =
        (.ok (), (storeFileTx ctx clock info header s fs).store)) ∧
      ∀ clock',
        (storeFileTx ctx clock' info header (storeFileTx ctx clock info header s fs).store []).result =
          .ok () ∧
        ∀ fs', (storeFileTx ctx clock' info header
            (storeFileTx ctx clock info header s fs).store fs').result = .ok () →
          SameUpToStamps (storeFileTx ctx clock info header s fs).store.db (storeFileTx ctx clock' info
            header (storeFileTx ctx clock info header s fs).store fs').store.db) := by
  refine ⟨fun e he => (storeFileTx_error he).rows, fun hok => ?_⟩
  obtain ⟨k, t, hkept, hstore⟩ := storeFileTx_ok hok
  refine ⟨storeFileTx_once hkeeps hok, fun clock' => ⟨?_, fun fs' hok' => ?_⟩⟩
  · obtain ⟨u, hagain, -⟩ := storeFile_again hstore (StateKept.refl _) (clock' 9)
    rw [storeFileTx_quiet hagain]
  · obtain ⟨k', v, hkept', hstore'⟩ := storeFileTx_ok hok'
    obtain ⟨u, hagain, hstamps⟩ := storeFile_again hstore hkept' (clock' k')
    rw [hstore'] at hagain
    rw [(Prod.mk.inj hagain).2]
    exact hstamps

end Retry

section

attribute [local instance] plainHost

theorem plainHost_keepsNames : KeepsNames where
  whole _ _ _ := rfl
  ascii _ _ _ _ := rfl

/-- The header's `INSTRUME` names the camera. -/
def cameraStore : StoreContext :=
  { plainStore with mapping := ⟨[("instrument".toList, ["INSTRUME".toList])], []⟩ }

def cameraHeader : RawHeader := notedHeader [⟨"INSTRUME".toList, "ZWO ASI6200MC Pro".toList, []⟩]

/-- The camera is known, but not to the worker. -/
def cameraKnown : StoreState :=
  ⟨(storeFileTx cameraStore (fun _ => 0) imageFile cameraHeader ⟨IndexDb.blank {}, {}⟩
    []).store.db, {}⟩

/-- `COMMIT` meets a deadlock; the second attempt has the camera in its cache. -/
theorem storeFileTx_atomic_retried :
    (storeFileTx cameraStore (fun _ => 5) imageFile cameraHeader cameraKnown
      (List.replicate 9 none ++ [some (.server 1213)])).result = .ok () ∧
    ∃ k c, storeFile cameraStore ((fun _ => 5 : ℕ → Micros) k) imageFile cameraHeader
      { cameraKnown with db := cameraKnown.db.advance c } =
        (.ok (), (storeFileTx cameraStore (fun _ => 5) imageFile cameraHeader cameraKnown
          (List.replicate 9 none ++ [some (.server 1213)])).store) := by
  have hok : (storeFileTx cameraStore (fun _ => 5) imageFile cameraHeader cameraKnown
      (List.replicate 9 none ++ [some (.server 1213)])).result = .ok () := by decide
  exact ⟨hok, ((storeFileTx_atomic plainHost_keepsNames cameraStore (fun _ => 5) imageFile
    cameraHeader cameraKnown _).2 hok).1⟩

/-- `COMMIT` meets a deadlock in the first attempt; the second returns, with another id. -/
theorem retried_file_renumbered :
    (storeFileTx plainStore (fun _ => 0) imageFile (imageHeader 1) ⟨IndexDb.blank {}, {}⟩
      [none, none, none, none, none, none, some (.server 1213)]).result = .ok () ∧
    (storeFileTx plainStore (fun _ => 0) imageFile (imageHeader 1) ⟨IndexDb.blank {}, {}⟩
      [none, none, none, none, none, none, some (.server 1213)]).store.db.files.rows ≠
        (storeFile plainStore 0 imageFile (imageHeader 1) ⟨IndexDb.blank {}, {}⟩).2.db.files.rows := by
  decide

end

end StarBase
