import StarBase.Scan.Presence

/-!
# What a reconciliation keeps

* `rowsAfter` — what a statement makes of the rows of `files`, whether or not they still have
  distinct paths;
* `Conserved` — each row that appeared is claimed at most once and for equal content, no id is lost
  but those of the claimed rows, and paths stay distinct after every statement;
* `reconcile_conserves` — **PROVED**: a pass whose new rows were all seen conserves the rows.
-/

namespace StarBase.Scan

open Relational

section Conserve

variable [Host]

/-! ### The statements on bare rows -/

/-- The rows after a statement, without the server's check of the UNIQUE key. -/
def rowsAfter (moment : ℕ → Micros) (rows : List FileRow) : ReconcileStatement → List FileRow
  | .deleteDuplicate i => rows.filter fun r => r.id ≠ i
  | .reanchor i a => rows.map fun r => if r.id = i then anchoredRow (moment i) a r else r
  | .markMissing i => rows.map fun r => if r.id = i then missingRow.apply r else r

variable {moment : ℕ → Micros}

theorem rows_execStatement {db d : IndexDb} {st : ReconcileStatement}
    (h : execStatement moment db st = some d) :
    d.files.rows = rowsAfter moment db.files.rows st := by
  cases st with
  | deleteDuplicate i =>
    cases h
    show (db.files.deleteWhere _).rows = _
    simp [rowsAfter, Table.deleteWhere_rows]
  | reanchor i a => exact (rekeyFile_eq_some h).1
  | markMissing i =>
    cases h
    show (db.files.modify _ _).rows = _
    simp [rowsAfter, Table.modify_rows]

/-- What a run of statements without an exception makes of the rows. -/
theorem rows_runStatements {sts : List ReconcileStatement} {db d : IndexDb}
    (h : runStatements moment db sts = (d, true)) :
    d.files.rows = sts.foldl (rowsAfter moment) db.files.rows := by
  induction sts generalizing db with
  | nil =>
    cases h
    rfl
  | cons st sts ih =>
    rw [runStatements] at h
    cases hst : execStatement moment db st with
    | none =>
      rw [hst] at h
      cases h
    | some d' =>
      rw [hst] at h
      rw [List.foldl_cons, ← rows_execStatement hst]
      exact ih h

/-- A run without an exception goes through every prefix of its statements. -/
theorem runStatements_take {sts : List ReconcileStatement} {db d : IndexDb}
    (h : runStatements moment db sts = (d, true)) (k : ℕ) :
    ∃ d', runStatements moment db (sts.take k) = (d', true) := by
  induction sts generalizing db k with
  | nil => exact ⟨db, by rw [List.take_nil]; rfl⟩
  | cons st sts ih =>
    cases k with
    | zero => exact ⟨db, rfl⟩
    | succ k =>
      rw [runStatements] at h
      cases hst : execStatement moment db st with
      | none =>
        rw [hst] at h
        cases h
      | some d' =>
        rw [hst] at h
        obtain ⟨e, he⟩ := ih h k
        exact ⟨e, by rw [List.take_succ_cons, runStatements_cons hst, he]⟩

/-! ### What is conserved -/

/-- The row that appeared which the pass takes the vanished row for. -/
def claimFor (db : IndexDb) (rootId : ℕ) (ss : Micros) (order : RowOrder) (v : FileRow) :
    Option FileRow :=
  moveTarget db (order.arrange (vanishedRows db rootId ss))
    (order.arrange (appearedRows db rootId ss)) v

/-- The statements of the pass. -/
def passStatements (db : IndexDb) (rootId : ℕ) (ss : Micros) (order : RowOrder) :
    List ReconcileStatement :=
  reconcileStatements db (order.arrange (vanishedRows db rootId ss))
    (order.arrange (appearedRows db rootId ss))

/-- The pass from `db` to `d` conserves the rows. -/
structure Conserved (db : IndexDb) (rootId : ℕ) (ss : Micros) (order : RowOrder)
    (moment : ℕ → Micros) (d : IndexDb) : Prop where
  /-- No row that appeared is claimed twice. -/
  once : ∀ v ∈ vanishedRows db rootId ss, ∀ w ∈ vanishedRows db rootId ss, ∀ a,
    claimFor db rootId ss order v = some a → claimFor db rootId ss order w = some a → v = w
  /-- A row is claimed for equal content, which is not empty. -/
  same : ∀ v ∈ vanishedRows db rootId ss, ∀ a, claimFor db rootId ss order v = some a →
    a ∈ appearedRows db rootId ss ∧ db.contentKey a.id = db.contentKey v.id ∧
      db.contentKey v.id ≠ []
  /-- The ids are those before but for the claimed rows. -/
  ids : ∀ i, i ∈ d.files.ids ↔ i ∈ db.files.ids ∧
    ∀ v ∈ vanishedRows db rootId ss, ∀ a, claimFor db rootId ss order v = some a → a.id ≠ i
  /-- A row that vanished is at the place of the row it claimed, with its id and frames, or it is
  missing. -/
  vanished : ∀ v ∈ vanishedRows db rootId ss, FramesKept v.id db d ∧
    match claimFor db rootId ss order v with
    | some a => anchoredRow (moment v.id) a v ∈ d.files.rows
    | none => missingRow.apply v ∈ d.files.rows
  /-- Any other row is as it was. -/
  others : ∀ r ∈ db.files.rows, r ∉ vanishedRows db rootId ss →
    (∀ v ∈ vanishedRows db rootId ss, claimFor db rootId ss order v ≠ some r) → r ∈ d.files.rows
  /-- Paths are distinct after every statement. -/
  unique : ∀ k, ((((passStatements db rootId ss order).take k).foldl (rowsAfter moment)
    db.files.rows).map fileKeying.key).Nodup

variable {db : IndexDb} {rootId prior : ℕ} {ss : Micros} {order : RowOrder}

theorem claimFor_eq_some_iff (order : RowOrder) {v a : FileRow} (hv : v ∈ vanishedRows db rootId ss) :
    claimFor db rootId ss order v = some a ↔ Moved db rootId ss v a :=
  moveTarget_eq_some_iff (order.perm _) (order.perm _) ((order.perm _).mem_iff.mpr hv)

/-- No statement of the pass is refused. -/
theorem passStatements_ok (db : IndexDb) (rootId : ℕ) (ss : Micros) (order : RowOrder)
    (moment : ℕ → Micros) : ∃ d, runStatements moment db (passStatements db rootId ss order) = (d, true) := by
  obtain ⟨d, hrun, _⟩ := progress_loop (order.perm (vanishedRows db rootId ss))
    (order.perm (appearedRows db rootId ss)) _ [] db rfl (progress_start : Progress db _ _ moment [] [] db)
  exact ⟨d, hrun⟩

theorem unique_after (db : IndexDb) (rootId : ℕ) (ss : Micros) (order : RowOrder)
    (moment : ℕ → Micros) (k : ℕ) :
    ((((passStatements db rootId ss order).take k).foldl (rowsAfter moment)
      db.files.rows).map fileKeying.key).Nodup := by
  obtain ⟨d, hd⟩ := passStatements_ok db rootId ss order moment
  obtain ⟨e, he⟩ := runStatements_take hd k
  rw [← rows_runStatements he]
  exact e.files.key_nodup

theorem exists_became (db : IndexDb) (rootId : ℕ) (ss : Micros) (moment : ℕ → Micros)
    (r : FileRow) : ∃ q, Became db rootId ss moment r q :=
  ⟨_, (settledRow_became (List.Perm.refl _) (List.Perm.refl _) r _).mp rfl⟩

/-- **A reconciliation conserves the rows.**  When the guard lets the pass run and every row that
appeared was seen, whatever order the server returns rows in. -/
theorem reconcile_conserves (db : IndexDb) (rootId : ℕ) (ss : Micros) (prior : ℕ) (order : RowOrder)
    (moment : ℕ → Micros) (hguard : guardTrips prior (seenNow db rootId ss) = false)
    (hseen : ∀ r ∈ appearedRows db rootId ss, seenSince ss r = true) :
    Conserved db rootId ss order moment (reconcileRoot rootId ss prior order moment db).db := by
  have hspec := reconcile_spec order moment hguard
  -- what appeared was seen, so it did not vanish
  have hdisjoint : ∀ v ∈ vanishedRows db rootId ss, ∀ u, ¬ Moved db rootId ss u v := by
    intro v hv u hm
    have hunseen := (mem_vanishedRows.mp hv).2.2.2
    rw [hseen v hm.appeared] at hunseen
    cases hunseen
  have hclaimed : ∀ r, (∀ v, ¬ Moved db rootId ss v r) ↔
      ∀ v ∈ vanishedRows db rootId ss, claimFor db rootId ss order v ≠ some r := by
    intro r
    constructor
    · exact fun h v hv hc => h v ((claimFor_eq_some_iff order hv).mp hc)
    · exact fun h v hm => h v hm.vanished ((claimFor_eq_some_iff order hm.vanished).mpr hm)
  have hstays : ∀ r ∈ db.files.rows, (∀ v, ¬ Moved db rootId ss v r) →
      r.id ∈ (reconcileRoot rootId ss prior order moment db).db.files.ids := by
    intro r hr hfree
    obtain ⟨q, hq⟩ := exists_became db rootId ss moment r
    exact Table.mem_ids.mpr ⟨q, (hspec.rows q).mpr ⟨r, hr, hfree, hq⟩, hq.id_eq⟩
  refine ⟨?_, ?_, ?_, ?_, ?_, unique_after db rootId ss order moment⟩
  · intro v hv w hw a hva hwa
    exact ((claimFor_eq_some_iff order hv).mp hva).source_unique ((claimFor_eq_some_iff order hw).mp hwa)
  · intro v hv a hva
    have hm := (claimFor_eq_some_iff order hv).mp hva
    exact ⟨hm.appeared, hm.same, hm.nonempty⟩
  · intro i
    constructor
    · intro hi
      obtain ⟨q, hq, rfl⟩ := Table.mem_ids.mp hi
      obtain ⟨r, hr, hfree, hb⟩ := (hspec.rows q).mp hq
      refine ⟨Table.mem_ids.mpr ⟨r, hr, hb.id_eq.symm⟩, fun v hv a hva hid => ?_⟩
      have ha := (mem_appearedRows.mp ((claimFor_eq_some_iff order hv).mp hva).appeared).1
      have hra : r = a := db.files.eq_of_id hr ha (hb.id_eq.symm.trans hid.symm)
      exact (hclaimed r).mp hfree v hv (hra ▸ hva)
    · intro hi
      obtain ⟨r, hr, rfl⟩ := Table.mem_ids.mp hi.1
      exact hstays r hr ((hclaimed r).mpr fun v hv hc => hi.2 v hv r hc rfl)
  · intro v hv
    have hvrow := (mem_vanishedRows.mp hv).1
    have hfree := hdisjoint v hv
    refine ⟨hspec.survives.framesKept (hstays v hvrow hfree), ?_⟩
    cases hc : claimFor db rootId ss order v with
    | some a =>
      have hm := (claimFor_eq_some_iff order hv).mp hc
      exact (hspec.rows _).mpr ⟨v, hvrow, hfree, .moved a hm⟩
    | none =>
      have hnone : ∀ a, ¬ Moved db rootId ss v a := fun a hm => by
        rw [(claimFor_eq_some_iff order hv).mpr hm] at hc
        cases hc
      exact (hspec.rows _).mpr ⟨v, hvrow, hfree, .missing hv hnone⟩
  · intro r hr hnv hfree
    exact (hspec.rows r).mpr ⟨r, hr, (hclaimed r).mpr hfree, .kept hnv⟩

end Conserve

/-! ### A file that moved -/

section MovedFile

attribute [local instance] plainHost

/-- The file `a.fits`, last seen at 5, was found at `c.fits` at 15. -/
def movedFile : IndexDb :=
  { IndexDb.blank {} with
    files :=
      { rows := [indexedRow 1 "a.fits" 5, indexedRow 2 "c.fits" 15]
        next := 3
        id_lt := by decide
        id_nodup := by decide
        key_nodup := by decide }
    frames :=
      { rows := [plainFrame 1 1, plainFrame 2 2]
        next := 3
        id_lt := by decide
        id_nodup := by decide
        key_nodup := by decide }
    frames_fk := by decide }

/-- The server returns the last row first. -/
def lastFirst : RowOrder := ⟨List.reverse, List.reverse_perm⟩

theorem reconcile_conserves_moved :
    Conserved movedFile 1 10 lastFirst (fun _ => 20)
      (reconcileRoot 1 10 1 lastFirst (fun _ => 20) movedFile).db :=
  reconcile_conserves movedFile 1 10 1 lastFirst (fun _ => 20) (by decide) (by decide)

end MovedFile

end StarBase.Scan
