import StarBase.Scan.Undated

/-!
# The mount guard

The guard compares how many rows of a root the sweep stamped, whatever their age, with how many were
`ok` before it.

* `SweepCounts`, `sweepCounts` — how many rows of the root were held before the sweep, and how many
  of them, of the missing ones and of the new ones the sweep stamped;
* `SweepCounts.FewKept` — fewer than half of the held rows are seen again or re-anchored;
* `SweepCounts.Protected` — half are kept, or the stamped rows are few beside the `ok` ones;
* `mount_guard_iff` — **PROVED**: a scan that keeps fewer than half of the files marks none missing,
  exactly if the counts protect them.
-/

namespace StarBase.Scan

open Relational

/-! ### What is counted -/

/-- The rows of a root around a sweep. -/
structure SweepCounts where
  /-- Present before the sweep. -/
  held : ℕ
  /-- `ok` before the sweep. -/
  ok : ℕ
  /-- Held, and stamped by the sweep. -/
  again : ℕ
  /-- Missing before the sweep, and stamped by it. -/
  returned : ℕ
  /-- Not there before the sweep, and stamped by it. -/
  created : ℕ
  /-- Held and not stamped, with content that one new row has and no other such row. -/
  moved : ℕ
  deriving DecidableEq

namespace SweepCounts

variable (c : SweepCounts)

/-- The rows that the sweep stamped, of any age. -/
def stamped : ℕ := c.again + c.returned + c.created

/-- Fewer than half of the files that were present are seen again or re-anchored. -/
def FewKept : Prop := 2 * (c.again + c.moved) < c.held

/-- At least half of the files are kept; or some were `ok`, and the sweep stamped no row or fewer
than half of these, rounded down. -/
def Protected : Prop :=
  c.held ≤ 2 * (c.again + c.moved) ∨ (0 < c.ok ∧ (c.stamped = 0 ∨ 2 * c.stamped + 2 ≤ c.ok))

instance : Decidable c.FewKept := inferInstanceAs (Decidable (_ < _))

instance : Decidable c.Protected := inferInstanceAs (Decidable (_ ∨ _))

end SweepCounts

theorem guardTrips_iff {prior seen : ℕ} :
    guardTrips prior seen = true ↔ 0 < prior ∧ (seen = 0 ∨ 2 * seen + 2 ≤ prior) := by
  unfold guardTrips
  simp only [Bool.and_eq_true, Bool.or_eq_true, decide_eq_true_eq]
  omega

section Guard

variable [Host]

/-- The files of the root that were present before the sweep. -/
def heldRows (db : IndexDb) (rootId : ℕ) : List FileRow :=
  db.files.rows.filter fun r => r.rootId = rootId && r.status ≠ .missing

def missingRows (db : IndexDb) (rootId : ℕ) : List FileRow :=
  db.files.rows.filter fun r => r.rootId = rootId && r.status = .missing

/-- The rows of the root that the sweep stamped. -/
def stampedRows (after : IndexDb) (rootId : ℕ) (ss : Micros) : List FileRow :=
  after.files.rows.filter fun r => r.rootId = rootId && seenSince ss r

/-- The row has content, which no other vanished row has and exactly one new row. -/
def movesTo (after : IndexDb) (rootId : ℕ) (ss : Micros) (v : FileRow) : Bool :=
  let same (r : FileRow) : Bool := after.contentKey r.id = after.contentKey v.id
  after.contentKey v.id ≠ [] && ((vanishedRows after rootId ss).filter same).length = 1 &&
    ((appearedRows after rootId ss).filter same).length = 1

def amongIds (ids : List ℕ) (r : FileRow) : Bool := r.id ∈ ids

/-- The index is `db` before the sweep and `after` when it has ended. -/
def sweepCounts (db after : IndexDb) (rootId : ℕ) (ss : Micros) : SweepCounts :=
  let held := (heldRows db rootId).map FileRow.id
  let missing := (missingRows db rootId).map FileRow.id
  let others := (stampedRows after rootId ss).filter fun r => !amongIds held r
  { held := held.length
    ok := priorOkCount db rootId
    again := ((stampedRows after rootId ss).filter (amongIds held)).length
    returned := (others.filter (amongIds missing)).length
    created := (others.filter fun r => !amongIds missing r).length
    moved := ((vanishedRows after rootId ss).filter (movesTo after rootId ss)).length }

/-- Every stamped row is counted once. -/
theorem stamped_sweepCounts (db after : IndexDb) (rootId : ℕ) (ss : Micros) :
    (sweepCounts db after rootId ss).stamped = seenNow after rootId ss := by
  have hheld := List.length_eq_length_filter_add (l := stampedRows after rootId ss)
    (amongIds ((heldRows db rootId).map FileRow.id))
  have hothers := List.length_eq_length_filter_add
    (l := (stampedRows after rootId ss).filter
      fun r => !amongIds ((heldRows db rootId).map FileRow.id) r)
    (amongIds ((missingRows db rootId).map FileRow.id))
  have hseen : seenNow after rootId ss = (stampedRows after rootId ss).length := rfl
  unfold SweepCounts.stamped sweepCounts
  dsimp only
  omega

/-- A row is claimed exactly if its content singles it out, in whatever order the server returns the
rows. -/
theorem claimFor_isSome_iff {db : IndexDb} {rootId : ℕ} {ss : Micros} (order : RowOrder)
    (v : FileRow) :
    (claimFor db rootId ss order v).isSome ↔ movesTo db rootId ss v = true := by
  have hcount : ∀ l : List FileRow, ∀ p : FileRow → Bool,
      ((order.arrange l).filter p).length = (l.filter p).length :=
    fun l p => ((order.perm l).filter p).length_eq
  have hfind : ((order.arrange (appearedRows db rootId ss)).find?
      fun a => db.contentKey a.id = db.contentKey v.id).isSome ↔
      0 < ((appearedRows db rootId ss).filter
        fun a => db.contentKey a.id = db.contentKey v.id).length := by
    rw [List.find?_isSome, ← hcount, List.length_pos_iff_exists_mem]
    simp [List.mem_filter]
  unfold claimFor moveTarget movesTo ambiguous vkCount
  simp only [hcount, Bool.and_eq_true, decide_eq_true_eq, decide_eq_false_iff_not]
  split
  · next h =>
    rw [hfind]
    constructor
    · intro hpos
      exact ⟨⟨h.1, h.2.2⟩, by omega⟩
    · intro hone
      omega
  · next h =>
    refine iff_of_false (by simp) fun hone => h ⟨hone.1.1, by omega, hone.1.2⟩

/-! ### What the sweep leaves of the held rows -/

section Sweep

variable {W : Type} [DecidableEq W]

omit [Host] [DecidableEq W] in
theorem exists_allAfter (events : List (Event W)) : ∃ ss, AllAfter ss events := by
  induction events with
  | nil => exact ⟨0, nofun⟩
  | cons e events ih =>
    obtain ⟨ss, hss⟩ := ih
    cases e with
    | stop => exact ⟨ss, List.forall_mem_cons.mpr ⟨nofun, hss⟩⟩
    | work w t =>
      refine ⟨min ss t, List.forall_mem_cons.mpr ⟨?_, fun e he v u heq => ?_⟩⟩
      · intro v u heq
        cases heq
        exact min_le_right _ _
      · exact (min_le_left _ _).trans (hss e he v u heq)

/-- A held row is there after the sweep, and not missing. -/
theorem held_after_sweep (cfg : ScanConfig) (run : ScanRun W) (offers : List Offer) (db : IndexDb)
    {r : FileRow} (hr : r ∈ heldRows db cfg.rootId) :
    ∃ q ∈ (swept cfg run offers db).db.files.rows, q.id = r.id ∧ q.rootId = cfg.rootId ∧
      q.status ≠ .missing := by
  obtain ⟨ss, hss⟩ := exists_allAfter run.events
  have hs : Sound (cfg.sweepConfig db) run.clock ss db (swept cfg run offers db) := sound_sweep hss
  rw [heldRows, List.mem_filter] at hr
  obtain ⟨hmem, hroot⟩ := hr
  simp only [Bool.and_eq_true, decide_eq_true_eq] at hroot
  obtain ⟨q, hq, hid⟩ := hs.keeps _ r (Table.get_of_mem hmem)
  have hkey : q.rootId = cfg.rootId :=
    (congrArg Prod.fst (Table.get_key hq)).trans hroot.1
  refine ⟨q, Table.get_mem hq, hid, hkey, ?_⟩
  by_cases htouched : ∃ e ∈ (swept cfg run offers db).trace,
      e.offer.key (cfg.sweepConfig db) = fileKeying.key r ∧ e.outcome.time ≠ none
  · obtain ⟨e, he, hek, htime⟩ := htouched
    obtain ⟨r', t, hget, -, -, hst⟩ := hs.stamped e he htime
    rw [hek, hq] at hget
    cases hget
    exact hst
  · have hsame := hs.untouched (fileKeying.key r) fun e he hek => by
      by_contra htime
      exact htouched ⟨e, he, hek, htime⟩
    rw [hq, Table.get_of_mem hmem] at hsame
    cases hsame
    exact hroot.2

/-- If every vanished row moves, every held file is kept. -/
theorem held_le_kept (cfg : ScanConfig) (run : ScanRun W) (offers : List Offer) (db : IndexDb)
    (h : ∀ v ∈ vanishedRows (swept cfg run offers db).db cfg.rootId run.scanStart,
      movesTo (swept cfg run offers db).db cfg.rootId run.scanStart v = true) :
    let c := sweepCounts db (swept cfg run offers db).db cfg.rootId run.scanStart
    c.held ≤ c.again + c.moved := by
  let after := (swept cfg run offers db).db
  let held := (heldRows db cfg.rootId).map FileRow.id
  let kept := (stampedRows after cfg.rootId run.scanStart).filter (amongIds held) ++
    (vanishedRows after cfg.rootId run.scanStart).filter (movesTo after cfg.rootId run.scanStart)
  have hnodup : held.Nodup := db.files.id_nodup.sublist (List.filter_sublist.map _)
  have hsub : held ⊆ kept.map FileRow.id := by
    intro i hi
    obtain ⟨r, hr, rfl⟩ := List.mem_map.mp hi
    obtain ⟨q, hq, hid, hroot, hst⟩ := held_after_sweep cfg run offers db hr
    refine List.mem_map.mpr ⟨q, List.mem_append.mpr ?_, hid⟩
    cases hseen : seenSince run.scanStart q with
    | true =>
      refine Or.inl (List.mem_filter.mpr ⟨List.mem_filter.mpr ⟨hq, by simp [hroot, hseen]⟩, ?_⟩)
      exact decide_eq_true (hid ▸ hi)
    | false =>
      have hv := mem_vanishedRows.mpr ⟨hq, hroot, hst, hseen⟩
      exact Or.inr (List.mem_filter.mpr ⟨hv, h q hv⟩)
  have hle := (hnodup.subperm hsub).length_le
  simpa [kept, held, sweepCounts] using hle

end Sweep

/-! ### The statements of the pass -/

theorem mem_markMissing_iff {db : IndexDb} {rootId : ℕ} {ss : Micros} {order : RowOrder} {i : ℕ} :
    .markMissing i ∈ passStatements db rootId ss order ↔
      ∃ v ∈ vanishedRows db rootId ss, v.id = i ∧ claimFor db rootId ss order v = none := by
  unfold passStatements reconcileStatements
  rw [List.mem_flatMap]
  have hstatements : ∀ v, .markMissing i ∈ statementsFor db (order.arrange (vanishedRows db rootId ss))
      (order.arrange (appearedRows db rootId ss)) v ↔
        v.id = i ∧ claimFor db rootId ss order v = none := by
    intro v
    unfold statementsFor
    cases hc : claimFor db rootId ss order v with
    | some a =>
      have ht : moveTarget db _ _ v = some a := hc
      rw [ht]
      simp
    | none =>
      have ht : moveTarget db _ _ v = none := hc
      rw [ht]
      simp [eq_comm]
  constructor
  · intro h
    obtain ⟨v, hv, hmem⟩ := h
    exact ⟨v, (order.perm _).mem_iff.mp hv, (hstatements v).mp hmem⟩
  · intro h
    obtain ⟨v, hv, hmem⟩ := h
    exact ⟨v, (order.perm _).mem_iff.mpr hv, (hstatements v).mpr hmem⟩

/-- The pass marks no file missing exactly if the guard trips or every vanished row is claimed. -/
theorem no_markMissing_iff (db : IndexDb) (rootId : ℕ) (ss : Micros) (prior : ℕ) (order : RowOrder) :
    (∀ i, .markMissing i ∉ sentStatements db rootId ss prior order) ↔
      guardTrips prior (seenNow db rootId ss) = true ∨
        ∀ v ∈ vanishedRows db rootId ss, (claimFor db rootId ss order v).isSome := by
  unfold sentStatements
  cases guardTrips prior (seenNow db rootId ss) with
  | true => simp
  | false =>
    rw [if_neg Bool.false_ne_true]
    simp only [Bool.false_eq_true, false_or]
    constructor
    · intro h v hv
      rw [Option.isSome_iff_ne_none]
      exact fun hnone => h v.id (mem_markMissing_iff.mpr ⟨v, hv, rfl, hnone⟩)
    · intro h i hmem
      obtain ⟨v, hv, _, hnone⟩ := mem_markMissing_iff.mp hmem
      have hsome := h v hv
      rw [hnone] at hsome
      cases hsome

variable {W : Type} [DecidableEq W]

/-- **The mount guard, exactly.**  For every index before the scan and everything its sweep saw. -/
theorem mount_guard_iff (cfg : ScanConfig) (run : ScanRun W) (offers : List Offer) (db : IndexDb) :
    let after := (swept cfg run offers db).db
    let c := sweepCounts db after cfg.rootId run.scanStart
    (c.FewKept → ∀ i, .markMissing i ∉
        sentStatements after cfg.rootId run.scanStart (priorOkCount db cfg.rootId) run.order) ↔
      c.Protected := by
  dsimp only
  rw [no_markMissing_iff, guardTrips_iff, ← stamped_sweepCounts db]
  unfold SweepCounts.Protected SweepCounts.FewKept
  have hok : (sweepCounts db (swept cfg run offers db).db cfg.rootId run.scanStart).ok
    = priorOkCount db cfg.rootId := rfl
  rw [hok]
  constructor
  · intro h
    by_cases hfew : 2 * ((sweepCounts db (swept cfg run offers db).db cfg.rootId run.scanStart).again
        + (sweepCounts db (swept cfg run offers db).db cfg.rootId run.scanStart).moved)
        < (sweepCounts db (swept cfg run offers db).db cfg.rootId run.scanStart).held
    · refine Or.inr ((h hfew).resolve_right fun hall => ?_)
      -- with every vanished row claimed no file would be lost
      have hkept := held_le_kept cfg run offers db fun v hv =>
        (claimFor_isSome_iff run.order v).mp (hall v hv)
      dsimp only at hkept
      omega
    · exact Or.inl (not_lt.mp hfew)
  · intro h hfew
    exact Or.inl (h.resolve_left (not_le.mpr hfew))

end Guard

/-! ### A mount that came up with something else -/

section OtherMount

attribute [local instance] plainHost

/-- Both files of the index are gone, and a file that cannot be read is there. -/
def otherDisk : List DiskFile := [fileAt "c.fits".toList ⟨2880, 0, 0, 1⟩ (.error [])]

/-- The one new row lets the pass run, and both files are marked missing. -/
theorem new_file_lifts_guard :
    RunsToEnd plainScan (oneWorkerRun 4) (walk [] otherDisk) twoFiles ∧
      sweepCounts twoFiles (swept plainScan (oneWorkerRun 4) (walk [] otherDisk) twoFiles).db 1 10
        = { held := 2, ok := 2, again := 0, returned := 0, created := 1, moved := 0 } ∧
      ¬ ∀ i, .markMissing i ∉ sentStatements
        (swept plainScan (oneWorkerRun 4) (walk [] otherDisk) twoFiles).db 1 10
        (priorOkCount twoFiles 1) (oneWorkerRun 4).order := by
  refine ⟨by decide, by decide, ?_⟩
  rw [no_markMissing_iff, not_or]
  exact ⟨by decide, by decide⟩

end OtherMount

end StarBase.Scan
