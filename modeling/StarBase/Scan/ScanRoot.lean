import StarBase.Scan.ReconcileSpec
import StarBase.Scan.SweepSpec

/-!
# A scan of a root

`scanRoot` is the whole pass: the registry snapshot, the baseline, the sweep, and the
reconciliation unless the scan was stopped.  What neither the index nor the disk determines (who
takes which file when, the clocks, the order of the server's rows) is the `ScanRun`.

* `scan_db_of_guarded`, `scan_reconciled` — **PROVED**: a scan that runs to its end leaves what the
  sweep left, reconciled unless the mount guard trips.

Sidecars are left out, and the clock of the server does not go back during the sweep.
-/

namespace StarBase.Scan

open Relational Extract

/-- The settings of a scan of one root. -/
structure ScanConfig where
  rootId : ℕ
  ignoreGlobs : List Str := []
  settleSeconds : Int := 30
  caseSensitive : Bool := true
  mapping : HeaderMapping
  site : SiteContext := {}
  sessionOffset : Micros := 0

/-- A path as the file system of the root compares it. -/
def ScanConfig.fold (cfg : ScanConfig) (p : Str) : Str := hashPath cfg.caseSensitive p

/-- What the program and the server leave open in one scan. -/
structure ScanRun (W : Type) where
  clock : W → Int
  scanStart : Micros
  events : List (Event W)
  order : RowOrder
  moment : ℕ → Micros

structure ScanOutcome [Host] where
  db : IndexDb
  stats : ScanStats
  moved : ℕ
  missing : ℕ

/-- A comma or a newline, which end an entry of the list of ignored names. -/
def isGlobBreak (c : Char) : Bool := c = ',' || c = '\n'

def isGlobBlank (c : Char) : Bool := c = ' ' || c = '\t' || c = '\r'

/-- The names to ignore: the root's own list if it has one, or the default. -/
def effectiveIgnore (own : Str) (default : List Str) : List Str :=
  if own = [] then default
  else ((own.splitOnP isGlobBreak).map (stripBoth isGlobBlank)).filter fun g => g ≠ []

section Scan

variable [Host] {W : Type} [DecidableEq W]

/-- Without an offset of its own the site has that of the registry's default site. -/
def nightSite (site : SiteContext) (registry : EquipmentRegistry) : SiteContext :=
  if site.utcOffsetHours = 0 ∧ registry.defaultSiteId.isSome then
    { site with utcOffsetHours := registry.defaultSiteOffsetH }
  else site

def ScanConfig.sweepConfig (cfg : ScanConfig) (db : IndexDb) : SweepConfig where
  rootId := cfg.rootId
  caseSensitive := cfg.caseSensitive
  settleSeconds := cfg.settleSeconds
  store :=
    { mapping := cfg.mapping
      site := nightSite cfg.site (EquipmentRegistry.load db)
      registry := EquipmentRegistry.load db }
  sessionOffset := cfg.sessionOffset

/-- The number of rows of the root that are `ok`, taken before the sweep. -/
def priorOkCount (db : IndexDb) (rootId : ℕ) : ℕ :=
  (db.files.rows.filter fun r => r.rootId = rootId && r.status = .ok).length

/-- The state the sweep of a scan ends in. -/
def swept (cfg : ScanConfig) (run : ScanRun W) (offers : List Offer) (db : IndexDb) :
    SweepState W :=
  sweep (cfg.sweepConfig db) run.clock (start offers db) run.events

def scanRoot (cfg : ScanConfig) (run : ScanRun W) (offers : List Offer) (db : IndexDb) :
    ScanOutcome :=
  let s := swept cfg run offers db
  -- A partial sweep would look like mass deletion.
  if s.stopped then { db := s.db, stats := s.stats, moved := 0, missing := 0 }
  else
    let done := reconcileRoot cfg.rootId run.scanStart (priorOkCount db cfg.rootId) run.order
      run.moment s.db
    { db := done.db, stats := s.stats, moved := done.moved, missing := done.missing }

/-- The scan runs to its end and the server's clock does not go back during the sweep. -/
structure RunsToEnd (cfg : ScanConfig) (run : ScanRun W) (offers : List Offer) (db : IndexDb) :
    Prop where
  complete : Complete (swept cfg run offers db)
  timely : AllAfter run.scanStart run.events

instance decidableRunsToEnd [Fintype W] (cfg : ScanConfig) (run : ScanRun W)
    (offers : List Offer) (db : IndexDb) : Decidable (RunsToEnd cfg run offers db) :=
  decidable_of_iff (Complete (swept cfg run offers db) ∧ AllAfter run.scanStart run.events)
    ⟨fun h => ⟨h.1, h.2⟩, fun h => ⟨h.1, h.2⟩⟩

/-- Whether the mount guard keeps the scan from reconciling. -/
def guarded (cfg : ScanConfig) (run : ScanRun W) (offers : List Offer) (db : IndexDb) : Bool :=
  guardTrips (priorOkCount db cfg.rootId)
    (seenNow (swept cfg run offers db).db cfg.rootId run.scanStart)

section Result

variable {cfg : ScanConfig} {run : ScanRun W} {offers : List Offer} {db : IndexDb}

theorem RunsToEnd.sound (h : RunsToEnd cfg run offers db) :
    Sound (cfg.sweepConfig db) run.clock run.scanStart db (swept cfg run offers db) :=
  sound_sweep h.timely

theorem RunsToEnd.conserved (h : RunsToEnd cfg run offers db) :
    WorkPool.Conserved offers (swept cfg run offers db).pool :=
  conserved_sweep h.timely

/-- A scan that runs to its end reconciles what its sweep left. -/
theorem RunsToEnd.scan_eq (h : RunsToEnd cfg run offers db) :
    (scanRoot cfg run offers db).db = (reconcileRoot cfg.rootId run.scanStart
      (priorOkCount db cfg.rootId) run.order run.moment (swept cfg run offers db).db).db := by
  unfold scanRoot
  dsimp only
  rw [if_neg (by simp [h.complete.running])]

theorem scan_db_of_guarded (h : RunsToEnd cfg run offers db)
    (hg : guarded cfg run offers db = true) :
    (scanRoot cfg run offers db).db = (swept cfg run offers db).db := by
  rw [h.scan_eq, reconcile_guarded run.order run.moment hg]

theorem scan_reconciled (h : RunsToEnd cfg run offers db)
    (hg : guarded cfg run offers db = false) :
    Reconciled (swept cfg run offers db).db cfg.rootId run.scanStart run.moment
      (scanRoot cfg run offers db).db := by
  rw [h.scan_eq]
  exact reconcile_spec run.order run.moment hg

/-- A row that vanished was not seen, and is as it was before the sweep. -/
theorem RunsToEnd.old_of_vanished (h : RunsToEnd cfg run offers db) {r : FileRow}
    (hv : r ∈ vanishedRows (swept cfg run offers db).db cfg.rootId run.scanStart) :
    r ∈ db.files.rows ∧ ¬ SettledAt (cfg.sweepConfig db) run.clock (swept cfg run offers db).trace
      (fileKeying.key r) := by
  obtain ⟨hr, -, -, hseen⟩ := mem_vanishedRows.mp hv
  have hset : ¬ SettledAt (cfg.sweepConfig db) run.clock (swept cfg run offers db).trace
      (fileKeying.key r) := by
    intro hset
    obtain ⟨p, t, hp, hlast, hss, -⟩ := h.complete.stamped h.sound hset
    rw [Table.get_of_mem hr] at hp
    cases hp
    simp [seenSince, hlast, hss] at hseen
  have hget := h.complete.untouched h.sound hset
  rw [Table.get_of_mem hr] at hget
  exact ⟨Table.get_mem hget.symm, hset⟩

/-- A row after the scan was left by the sweep, unless it vanished. -/
theorem RunsToEnd.row_of_scan (h : RunsToEnd cfg run offers db) {q : FileRow}
    (hq : q ∈ (scanRoot cfg run offers db).db.files.rows) :
    ∃ r ∈ (swept cfg run offers db).db.files.rows, r.id = q.id ∧
      (q = r ∨ r ∈ vanishedRows (swept cfg run offers db).db cfg.rootId run.scanStart) := by
  cases hg : guarded cfg run offers db with
  | true =>
    rw [scan_db_of_guarded h hg] at hq
    exact ⟨q, hq, rfl, Or.inl rfl⟩
  | false =>
    obtain ⟨r, hr, -, hb⟩ := ((scan_reconciled h hg).rows q).mp hq
    refine ⟨r, hr, hb.id_eq.symm, ?_⟩
    cases hb with
    | kept => exact Or.inl rfl
    | moved a hm => exact Or.inr hm.vanished
    | missing hv => exact Or.inr hv

/-- A row that did not vanish and is not taken for a moved file stays as the sweep left it. -/
theorem RunsToEnd.row_stays (h : RunsToEnd cfg run offers db) {r : FileRow}
    (hr : r ∈ (swept cfg run offers db).db.files.rows)
    (hv : r ∉ vanishedRows (swept cfg run offers db).db cfg.rootId run.scanStart)
    (hm : ∀ v, ¬ Moved (swept cfg run offers db).db cfg.rootId run.scanStart v r) :
    r ∈ (scanRoot cfg run offers db).db.files.rows := by
  cases hg : guarded cfg run offers db with
  | true =>
    rw [scan_db_of_guarded h hg]
    exact hr
  | false => exact ((scan_reconciled h hg).rows r).mpr ⟨r, hr, hm, .kept hv⟩

/-- The reconciliation leaves the frames of the files that stay. -/
theorem RunsToEnd.survives (h : RunsToEnd cfg run offers db) :
    Survives (swept cfg run offers db).db (scanRoot cfg run offers db).db := by
  cases hg : guarded cfg run offers db with
  | true =>
    rw [scan_db_of_guarded h hg]
    exact survives_of_ids rfl rfl rfl rfl rfl rfl rfl rfl
  | false => exact (scan_reconciled h hg).survives

/-- When the sweep saw every live row the reconciliation has nothing to do. -/
theorem RunsToEnd.scan_of_nothing_vanished (h : RunsToEnd cfg run offers db)
    (hv : vanishedRows (swept cfg run offers db).db cfg.rootId run.scanStart = []) :
    scanRoot cfg run offers db = {
      db := (swept cfg run offers db).db
      stats := (swept cfg run offers db).stats
      moved := 0
      missing := 0 } := by
  unfold scanRoot
  dsimp only
  rw [if_neg (by simp [h.complete.running]), reconcile_nothing_vanished run.order run.moment hv]

end Result

end Scan

end StarBase.Scan
