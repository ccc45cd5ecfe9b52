import StarBase.Index.FrameStore
import StarBase.Lib.Interning

/-!
# Cameras and filters under concurrent stores

The workers of a sweep look cameras and filters up in one pair of tables, each with its own cache
over the one registry snapshot.  Their store transactions interleave, and one that loses a deadlock
is rolled back and retried with the cache as it is.

* `cameraAsk`, `filterAsk` — how a lookup that is not cached is answered;
* `Sharing.step` — the lookups, commits and rollbacks of all workers;
* `resolveCamera_of_look`, `resolveFilter_of_look` — **PROVED**: a worker's step is `resolveCamera`
  or `resolveFilter` on the tables its transaction reads;
* `ids_converge_iff` — **PROVED**: the ids converge exactly in the runs in which no worker looks up
  a string again whose row a rollback of its own took back.
-/

namespace StarBase

open Relational Interning Run Extract

/-! ### Strings equal up to case -/

theorem takeWhile_isDigit_lower (s : Str) :
    (lower s).takeWhile Char.isDigit = s.takeWhile Char.isDigit := by
  induction s with
  | nil => rfl
  | cons c cs ih =>
    show List.takeWhile _ (c.toLower :: lower cs) = _
    rw [List.takeWhile_cons, List.takeWhile_cons, isDigit_toLower]
    split
    · next h => rw [ih, toLower_eq_self_of_isDigit h]
    · rfl

theorem baseModelAt_lower (s : Str) : baseModelAt (lower s) = baseModelAt s := by
  have htake : (lower s).take 3 = lower (s.take 3) := List.map_take.symm
  have hdrop : (lower s).drop 3 = lower (s.drop 3) := List.map_drop.symm
  unfold baseModelAt
  rw [htake, lower_lower, hdrop]
  cases s.drop 3 with
  | nil => rfl
  | cons c cs =>
    have hrest : (if isSpaceChar c.toLower then List.map Char.toLower cs
        else c.toLower :: List.map Char.toLower cs) =
        lower (if isSpaceChar c then cs else c :: cs) := by
      rw [isSpaceChar_toLower]
      split <;> rfl
    simp only [lower, List.map_cons]
    rw [hrest, takeWhile_isDigit_lower]

/-- The canonical model does not depend on the case of the raw string. -/
theorem baseModel_lower (s : Str) : baseModel (lower s) = baseModel s := by
  induction s with
  | nil => rfl
  | cons c cs ih =>
    show (baseModelAt (lower (c :: cs))).getD (baseModel (lower cs)) = _
    rw [baseModelAt_lower, ih]
    rfl

theorem baseModel_congr {a b : Str} (h : lower a = lower b) : baseModel a = baseModel b := by
  rw [← baseModel_lower a, h, baseModel_lower]

/-! ### The lookups -/

section Ask

variable [Host]

def cameraAsk (reg : EquipmentRegistry) (raw : Str) : Ask nameKeying :=
  match reg.cameraAliases.find? fun a => hasSubstring (lower a.1) (lower raw) with
  | some a => .given (some a.2)
  | none =>
    let model := baseModel raw
    if model = [] then .given none
    else match reg.camerasByModel.lookup (lower model) with
      | some i => .listed i (Host.collate model)
      | none => .make _ (newNamed 64 model) (Host.collate model)

def filterAsk (reg : EquipmentRegistry) (raw : Str) : Ask nameKeying :=
  match reg.filterAliases.find? fun a => lower raw = lower a.1 with
  | some a => .given (some a.2)
  | none =>
    match reg.filtersByName.lookup (lower raw) with
    | some i => .listed i (Host.collate raw)
    | none => .make _ (newNamed 32 raw) (Host.collate raw)

/-- Strings with one key in the cache ask for one name. -/
theorem cameraAsk_name? {reg : EquipmentRegistry} (a b : Str) (h : lower a = lower b) :
    (cameraAsk reg a).name? = (cameraAsk reg b).name? := by
  unfold cameraAsk
  rw [h, baseModel_congr h]

theorem filterAsk_name? (hci : ∀ s, Host.collate (lower s) = Host.collate s)
    {reg : EquipmentRegistry} (a b : Str) (h : lower a = lower b) :
    (filterAsk reg a).name? = (filterAsk reg b).name? := by
  have hab : Host.collate a = Host.collate b := by rw [← hci a, h, hci]
  unfold filterAsk
  rw [h, hab]
  split
  · rfl
  · split <;> rfl

theorem mem_byLowerName {T : Table nameKeying} {name : Str} {i : ℕ}
    (h : (byLowerName T).lookup name = some i) :
    ∃ r ∈ T.rows, r.id = i ∧ lower r.name = name := by
  obtain ⟨l₁, l₂, hl, -⟩ := List.lookup_eq_some_iff.mp h
  have hmem : (name, i) ∈ byLowerName T := by
    rw [hl]
    simp
  obtain ⟨r, hr, he⟩ := List.mem_map.mp (List.mem_reverse.mp hmem)
  exact ⟨r, hr, congrArg Prod.snd he, congrArg Prod.fst he⟩

/-- A listed name is that of a row of the table the snapshot was taken of. -/
theorem row_of_listed (hci : ∀ s, Host.collate (lower s) = Host.collate s)
    {T : Table nameKeying} {name : Str} {i : ℕ}
    (h : (byLowerName T).lookup (lower name) = some i) :
    ∃ r ∈ T.rows, nameKeying.id r = i ∧ nameKeying.key r = Host.collate name := by
  obtain ⟨r, hr, hi, hname⟩ := mem_byLowerName h
  refine ⟨r, hr, hi, ?_⟩
  show Host.collate r.name = Host.collate name
  rw [← hci r.name, hname, hci]

/-- The foreign keys of `camera_aliases` and `filter_aliases`. -/
structure AliasesRefer (db : IndexDb) : Prop where
  cameras : ∀ a ∈ db.operator.cameraAliases, a.2 ∈ db.cameras.ids
  filters : ∀ a ∈ db.operator.filterAliases, a.2 ∈ db.filters.ids

variable {W : Type*} {db : IndexDb}

theorem inv_cameras (hci : ∀ s, Host.collate (lower s) = Host.collate s) (hdb : AliasesRefer db) :
    Inv lower (cameraAsk (EquipmentRegistry.load db))
      (Shared.quiet db.cameras : Shared nameKeying W Str) := by
  refine inv_quiet (fun a i h => ?_) fun a i name h => ?_
  all_goals
    unfold cameraAsk at h
    split at h
  · next al hal =>
    obtain rfl : al.2 = i := by simpa using h
    exact hdb.cameras _ (List.mem_of_find?_eq_some hal)
  · dsimp only at h
    split at h
    · cases h
    · split at h <;> cases h
  · cases h
  · dsimp only at h
    split at h
    · cases h
    · split at h
      · next hl =>
        cases h
        exact row_of_listed hci hl
      · cases h

theorem inv_filters (hci : ∀ s, Host.collate (lower s) = Host.collate s) (hdb : AliasesRefer db) :
    Inv lower (filterAsk (EquipmentRegistry.load db))
      (Shared.quiet db.filters : Shared nameKeying W Str) := by
  refine inv_quiet (fun a i h => ?_) fun a i name h => ?_
  all_goals
    unfold filterAsk at h
    split at h
  · next al hal =>
    obtain rfl : al.2 = i := by simpa using h
    exact hdb.filters _ (List.mem_of_find?_eq_some hal)
  · split at h <;> cases h
  · cases h
  · split at h
    · next hl =>
      cases h
      exact row_of_listed hci hl
    · cases h

/-! ### The workers -/

/-- The two tables of names, with what the workers hold of each. -/
structure Sharing (W : Type*) where
  cameras : Shared nameKeying W Str
  filters : Shared nameKeying W Str

/-- What a worker does next.  An attempt is a lookup that fails between its `INSERT IGNORE` and the
reading of the id. -/
inductive StoreEvent (W : Type*)
  | camera (w : W) (raw : Str)
  | filter (w : W) (raw : Str)
  | cameraAttempt (w : W) (raw : Str)
  | filterAttempt (w : W) (raw : Str)
  | commit (w : W)
  | rollback (w : W)

namespace Sharing

def start (db : IndexDb) : Sharing W := ⟨Shared.quiet db.cameras, Shared.quiet db.filters⟩

variable [DecidableEq W]

/-- The database as the worker's transaction reads it. -/
def view (s : Sharing W) (w : W) (db : IndexDb) : IndexDb :=
  { db with
    cameras := s.cameras.seen w
    filters := s.filters.seen w
    frames_fk := db.frames_fk }

/-- A worker's caches. -/
def caches (s : Sharing W) (w : W) : Caches :=
  ⟨(s.cameras.seat w).cache, (s.filters.seat w).cache⟩

def step (reg : EquipmentRegistry) (s : Sharing W) : StoreEvent W → Sharing W
  | .camera w raw => { s with cameras := s.cameras.step lower (cameraAsk reg) (.lookup w raw) }
  | .filter w raw =>
    if raw = [] then s
    else { s with filters := s.filters.step lower (filterAsk reg) (.lookup w raw) }
  | .cameraAttempt w raw =>
    { s with cameras := s.cameras.step lower (cameraAsk reg) (.attempt w raw) }
  | .filterAttempt w raw =>
    if raw = [] then s
    else { s with filters := s.filters.step lower (filterAsk reg) (.attempt w raw) }
  | .commit w => ⟨s.cameras.commit w, s.filters.commit w⟩
  | .rollback w => ⟨s.cameras.rollback w, s.filters.rollback w⟩

end Sharing

variable [DecidableEq W]

/-! ### A worker's step is the resolver's -/

theorem lookupCamera_eq (reg : EquipmentRegistry) (raw : Str) (T : Table nameKeying) :
    lookupCamera reg raw T = (cameraAsk reg raw).answer T := by
  unfold lookupCamera cameraAsk
  cases reg.cameraAliases.find? fun a => hasSubstring (lower a.1) (lower raw) with
  | some a => rfl
  | none =>
    dsimp only
    by_cases hm : baseModel raw = []
    · rw [if_pos hm, if_pos hm]
      rfl
    · rw [if_neg hm, if_neg hm]
      cases reg.camerasByModel.lookup (lower (baseModel raw)) <;> rfl

theorem lookupFilter_eq (reg : EquipmentRegistry) (raw : Str) (T : Table nameKeying) :
    lookupFilter reg raw T = (filterAsk reg raw).answer T := by
  unfold lookupFilter filterAsk
  cases reg.filterAliases.find? fun a => lower raw = lower a.1 with
  | some a => rfl
  | none => cases reg.filtersByName.lookup (lower raw) <;> rfl

section Refines

variable {reg : EquipmentRegistry} {s : Sharing W} {w : W} {raw : Str} {found : Option ℕ}
  {t : Shared nameKeying W Str}

/-- A camera lookup is `resolveCamera` on what the worker's transaction reads. -/
theorem resolveCamera_of_look (hp : ∀ p ∈ s.cameras.pending, p.1 ∈ s.cameras.table.ids)
    (hl : s.cameras.look lower (cameraAsk reg) w raw = some (found, t)) :
    resolveCamera reg raw ⟨s.view w db, s.caches w⟩ =
      (found, ⟨({ s with cameras := t } : Sharing W).view w db,
        ({ s with cameras := t } : Sharing W).caches w⟩) := by
  have h := answer_of_look hp hl
  unfold resolveCamera
  dsimp only [Sharing.caches, Sharing.view]
  cases hc : (s.cameras.seat w).cache.lookup (lower raw) with
  | some f =>
    rw [hc] at h
    obtain ⟨rfl, rfl⟩ := h
    rfl
  | none =>
    rw [hc] at h
    obtain ⟨hanswer, hcache⟩ := h
    simp only [lookupCamera_eq, hanswer, hcache]

/-- A filter lookup is `resolveFilter` on what the worker's transaction reads. -/
theorem resolveFilter_of_look (hp : ∀ p ∈ s.filters.pending, p.1 ∈ s.filters.table.ids)
    (hraw : raw ≠ []) (hl : s.filters.look lower (filterAsk reg) w raw = some (found, t)) :
    resolveFilter reg raw ⟨s.view w db, s.caches w⟩ =
      (found, ⟨({ s with filters := t } : Sharing W).view w db,
        ({ s with filters := t } : Sharing W).caches w⟩) := by
  have h := answer_of_look hp hl
  unfold resolveFilter
  rw [if_neg hraw]
  dsimp only [Sharing.caches, Sharing.view]
  cases hc : (s.filters.seat w).cache.lookup (lower raw) with
  | some f =>
    rw [hc] at h
    obtain ⟨rfl, rfl⟩ := h
    rfl
  | none =>
    rw [hc] at h
    obtain ⟨hanswer, hcache⟩ := h
    simp only [lookupFilter_eq, hanswer, hcache]

end Refines

/-! ### Convergence -/

/-- No two rows have names that are equal up to case. -/
def NamesDiffer (T : Table nameKeying) : Prop :=
  ∀ r ∈ T.rows, ∀ q ∈ T.rows, lower r.name = lower q.name → r = q

omit [DecidableEq W] in
theorem namesDiffer (hci : ∀ s, Host.collate (lower s) = Host.collate s)
    (T : Table nameKeying) : NamesDiffer T := by
  intro r hr q hq h
  refine T.eq_of_key hr hq ?_
  show Host.collate r.name = Host.collate q.name
  rw [← hci r.name, h, hci]

/-- Every id a transaction was given is that of a row it reads, every name that committed
transactions were given ids for has one row, and no name has two. -/
structure IdsConverge (s : Sharing W) : Prop where
  cameras : Converged s.cameras
  filters : Converged s.filters
  models : NamesDiffer s.cameras.table
  names : NamesDiffer s.filters.table

/-- Ids that `resolve` returned pass the foreign keys of `frames`. -/
theorem equipmentExists_of_converged {s : Sharing W} (h : IdsConverge s) {w : W}
    {ids : EquipmentIds} (hcam : ∀ i ∈ ids.cameraId, i ∈ (s.cameras.seat w).held)
    (hfilt : ∀ i ∈ ids.filterId, i ∈ (s.filters.seat w).held)
    (hrig : ids.rigId.all fun i => db.operator.rigs.any fun r => r.id = i)
    (hsite : ids.siteId.all fun i => db.operator.sites.any fun s => s.id = i) :
    equipmentExists (s.view w db) ids = true := by
  have hc : ids.cameraId.all (fun i => (s.cameras.seen w).ids.contains i) = true :=
    (Option.all_eq_true _ _).mpr fun i hi =>
      List.contains_iff_mem.mpr (mem_ids_seen.mpr (h.cameras.held w i (hcam i hi)))
  have hf : ids.filterId.all (fun i => (s.filters.seen w).ids.contains i) = true :=
    (Option.all_eq_true _ _).mpr fun i hi =>
      List.contains_iff_mem.mpr (mem_ids_seen.mpr (h.filters.held w i (hfilt i hi)))
  unfold equipmentExists
  simp only [Sharing.view]
  rw [hc, hf, hrig, hsite]
  rfl

/-- The step looks up no string again whose row went with a rollback of the worker's own. -/
def AsksNoLost (s : Sharing W) : StoreEvent W → Prop
  | .camera w raw => lower raw ∉ (s.cameras.seat w).lost
  | .filter w raw => raw ≠ [] → lower raw ∉ (s.filters.seat w).lost
  | _ => True

/-- The invariant of the two tables. -/
def NamesInv (reg : EquipmentRegistry) (s : Sharing W) : Prop :=
  Inv lower (cameraAsk reg) s.cameras ∧ Inv lower (filterAsk reg) s.filters

theorem NamesInv.step (hci : ∀ s, Host.collate (lower s) = Host.collate s)
    {reg : EquipmentRegistry} {s : Sharing W} (h : NamesInv reg s) {e : StoreEvent W}
    (he : AsksNoLost s e) : NamesInv reg (s.step reg e) := by
  obtain ⟨hc, hf⟩ := h
  cases e with
  | camera w raw => exact ⟨hc.step (e := .lookup w raw) cameraAsk_name? he, hf⟩
  | filter w raw =>
    simp only [Sharing.step]
    split
    · exact ⟨hc, hf⟩
    · next hraw => exact ⟨hc, hf.step (e := .lookup w raw) (filterAsk_name? hci) (he hraw)⟩
  | cameraAttempt w raw => exact ⟨hc.step (e := .attempt w raw) cameraAsk_name? trivial, hf⟩
  | filterAttempt w raw =>
    simp only [Sharing.step]
    split
    · exact ⟨hc, hf⟩
    · exact ⟨hc, hf.step (e := .attempt w raw) (filterAsk_name? hci) trivial⟩
  | commit w => exact ⟨hc.commit w, hf.commit w⟩
  | rollback w => exact ⟨hc.rollback w, hf.rollback w⟩

theorem asksNoLost_of_converge {reg : EquipmentRegistry} {s : Sharing W} (h : NamesInv reg s)
    {e : StoreEvent W} (hc : IdsConverge (s.step reg e)) : AsksNoLost s e := by
  cases e with
  | camera w raw => exact noLost_of_converged (e := .lookup w raw) h.1 hc.cameras
  | filter w raw =>
    intro hraw
    simp only [Sharing.step, if_neg hraw] at hc
    exact noLost_of_converged (e := .lookup w raw) h.2 hc.filters
  | cameraAttempt w raw => trivial
  | filterAttempt w raw => trivial
  | commit w => trivial
  | rollback w => trivial

/-- **Equipment ids converge, exactly.**  Over the registry snapshot of a database whose aliases
refer to rows, under a collation that ignores case: in any interleaving of any workers' store
transactions, the ids converge throughout if and only if no worker looks up a string again whose
row went with a rollback of its own. -/
theorem ids_converge_iff (hci : ∀ s, Host.collate (lower s) = Host.collate s)
    (hdb : AliasesRefer db) (es : List (StoreEvent W)) :
    Always (Sharing.step (EquipmentRegistry.load db)) IdsConverge (Sharing.start db) es ↔
      Each (Sharing.step (EquipmentRegistry.load db)) AsksNoLost (Sharing.start db) es :=
  always_iff_each_of_invariant (fun _ _ hs he => hs.step hci he)
    (fun _ hs => ⟨hs.1.converged, hs.2.converged, namesDiffer hci _, namesDiffer hci _⟩)
    (fun _ _ hs hc => asksNoLost_of_converge hs hc)
    ⟨inv_cameras hci hdb, inv_filters hci hdb⟩

end Ask

/-! ### Two workers -/

/-- A collation that ignores case and nothing else. -/
@[reducible] def foldedHost : Host := { plainHost with collate := lower }

section Workers

attribute [local instance] foldedHost

/-- A worker whose transaction is rolled back converges with the other one when it goes on with
another filter. -/
theorem ids_converge_after_rollback :
    Always (Sharing.step (EquipmentRegistry.load (IndexDb.blank {}))) IdsConverge
      (Sharing.start (IndexDb.blank {}))
      [StoreEvent.filter true "Ha".toList, .filter false "hA".toList, .rollback true,
        .filter false "hA".toList, .commit false, .camera true "ZWO ASI6200MM".toList,
        .filter true "OIII".toList, .commit true] := by
  refine (ids_converge_iff lower_lower ⟨by simp [IndexDb.blank], by simp [IndexDb.blank]⟩ _).mpr ?_
  refine ⟨?_, ?_, trivial, ?_, trivial, ?_, ?_, trivial, trivial⟩
  · exact fun _ => by decide
  · exact fun _ => by decide
  · exact fun _ => by decide
  · show _ ∉ _
    decide
  · exact fun _ => by decide

/-- A worker retries a rolled-back store of a new filter: the id its cache returns has no row. -/
theorem ids_diverge_on_retry :
    ¬ Always (Sharing.step (EquipmentRegistry.load (IndexDb.blank {}))) IdsConverge
      (Sharing.start (IndexDb.blank {}))
      [StoreEvent.filter () "Ha".toList, .rollback (), .filter () "Ha".toList] := by
  intro h
  have hheld := h.last.filters.held () 1 (by decide)
  exact absurd hheld (by decide)

end Workers

end StarBase
