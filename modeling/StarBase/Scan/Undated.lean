import StarBase.Scan.Conserve

/-!
# Moves of files without a date

The content of a file is known by a digest of identity cards, in which a card that is absent counts
as empty.

* `Dated` — every frame of a file has a `DATE-OBS` card;
* `Equivocal` — the content of a vanished file does not single out one vanished and one new file;
* `moves_dated_iff` — **PROVED**: a pass re-anchors dated files only, exactly if the guard holds it
  back or the content of every undated file that vanished is equivocal.
-/

namespace StarBase.Scan

open Relational

section Undated

variable [Host]

/-- Every frame of the file has a `DATE-OBS` card. -/
def Dated (db : IndexDb) (fileId : ℕ) : Prop :=
  ∀ f ∈ db.frames.rows, f.fileId = fileId → ∃ k ∈ db.keywordsOf f.id, k.keyword = "DATE-OBS".toList

/-- The statements that the pass sends: none when the guard holds it back. -/
def sentStatements (db : IndexDb) (rootId : ℕ) (ss : Micros) (prior : ℕ) (order : RowOrder) :
    List ReconcileStatement :=
  if guardTrips prior (seenNow db rootId ss) then [] else passStatements db rootId ss order

/-- Another vanished file has the content of `v`, or not exactly one new file has it. -/
def Equivocal (db : IndexDb) (rootId : ℕ) (ss : Micros) (v : FileRow) : Prop :=
  (∃ w ∈ vanishedRows db rootId ss, w ≠ v ∧ db.contentKey w.id = db.contentKey v.id) ∨
    ¬ ∃! a, a ∈ appearedRows db rootId ss ∧ db.contentKey a.id = db.contentKey v.id

variable {db : IndexDb} {rootId prior : ℕ} {ss : Micros} {order : RowOrder}

theorem mem_reanchors_iff {i : ℕ} {a : FileRow} :
    .reanchor i a ∈ passStatements db rootId ss order ↔
      ∃ v, v.id = i ∧ Moved db rootId ss v a := by
  unfold passStatements reconcileStatements
  rw [List.mem_flatMap]
  constructor
  · intro h
    obtain ⟨v, hv, hmem⟩ := h
    have hvan := (order.perm _).mem_iff.mp hv
    unfold statementsFor at hmem
    cases ht : claimFor db rootId ss order v with
    | some b =>
      have ht' : moveTarget db _ _ v = some b := ht
      rw [ht'] at hmem
      have hmem' : i = v.id ∧ a = b := by simpa using hmem
      exact ⟨v, hmem'.1.symm, hmem'.2 ▸ (claimFor_eq_some_iff order hvan).mp ht⟩
    | none =>
      have ht' : moveTarget db _ _ v = none := ht
      rw [ht'] at hmem
      simp at hmem
  · intro h
    obtain ⟨v, rfl, hm⟩ := h
    refine ⟨v, (order.perm _).mem_iff.mpr hm.vanished, ?_⟩
    have ht : moveTarget db _ _ v = some a := (claimFor_eq_some_iff order hm.vanished).mpr hm
    unfold statementsFor
    rw [ht]
    simp

/-- An undated file has a frame, and with it content. -/
theorem contentKey_ne_nil {i : ℕ} (h : ¬ Dated db i) : db.contentKey i ≠ [] := by
  unfold Dated at h
  push Not at h
  obtain ⟨f, hf, hid, _⟩ := h
  intro hnil
  have hnone := contentKey_eq_nil_iff.mp hnil f.hdu
  have hkey : frameKeying.key f = (i, f.hdu) := by rw [← hid]; rfl
  rw [← hkey, Table.get_of_mem hf] at hnone
  cases hnone

/-- A vanished file with content is taken for a new one unless the content is equivocal. -/
theorem exists_moved_iff {v : FileRow} (hv : v ∈ vanishedRows db rootId ss)
    (hne : db.contentKey v.id ≠ []) :
    (∃ a, Moved db rootId ss v a) ↔ ¬ Equivocal db rootId ss v := by
  constructor
  · intro h he
    obtain ⟨a, hm⟩ := h
    rcases he with ⟨w, hw, hwv, hk⟩ | hnot
    · exact hwv (hm.oneVanished w hw hk)
    · exact hnot ⟨a, ⟨hm.appeared, hm.same⟩, fun b hb => hm.oneAppeared b hb.1 hb.2⟩
  · intro h
    unfold Equivocal at h
    rw [not_or, not_not] at h
    obtain ⟨hone, a, ha, hunique⟩ := h
    refine ⟨a, hv, ha.1, hne, ha.2, fun u hu hk => ?_, fun b hb hk => hunique b ⟨hb, hk⟩⟩
    by_contra huv
    exact hone ⟨u, hu, huv, hk⟩

/-- **Moves of dated files, exactly.**  Of every index, sweep and order of the server's rows. -/
theorem moves_dated_iff (db : IndexDb) (rootId : ℕ) (ss : Micros) (prior : ℕ) (order : RowOrder) :
    (∀ i a, .reanchor i a ∈ sentStatements db rootId ss prior order → Dated db i) ↔
      guardTrips prior (seenNow db rootId ss) = true ∨
        ∀ v ∈ vanishedRows db rootId ss, ¬ Dated db v.id → Equivocal db rootId ss v := by
  unfold sentStatements
  cases guardTrips prior (seenNow db rootId ss) with
  | true => simp
  | false =>
    rw [if_neg Bool.false_ne_true]
    simp only [Bool.false_eq_true, false_or]
    constructor
    · intro h v hv hundated
      by_contra hsure
      obtain ⟨a, hm⟩ := (exists_moved_iff hv (contentKey_ne_nil hundated)).mpr hsure
      exact hundated (h v.id a (mem_reanchors_iff.mpr ⟨v, rfl, hm⟩))
    · intro h i a hmem
      obtain ⟨v, rfl, hm⟩ := mem_reanchors_iff.mp hmem
      by_contra hundated
      exact (exists_moved_iff hm.vanished hm.nonempty).mp ⟨a, hm⟩ (h v hm.vanished hundated)

end Undated

/-! ### Two masters without a date -/

section Masters

attribute [local instance] plainHost

/-- A master flat of the filter `L` is gone and one of the filter `R` is new; neither has a date,
and their other identity cards agree. -/
def twoMasters : IndexDb :=
  { movedFile with
    keywords := [⟨1, 0, "FILTER".toList, some "L".toList, none⟩,
      ⟨2, 0, "FILTER".toList, some "R".toList, none⟩] }

/-- The row of the first master is re-anchored at the path of the second. -/
theorem undated_move_guessed :
    .reanchor 1 (indexedRow 2 "c.fits" 15) ∈ sentStatements twoMasters 1 10 1 lastFirst ∧
      ¬ Dated twoMasters 1 := by
  constructor
  · exact mem_reanchors_iff.mpr ⟨indexedRow 1 "a.fits" 5, rfl, by
      refine (claimFor_eq_some_iff lastFirst ?_).mp ?_
      · decide
      · decide⟩
  · intro h
    obtain ⟨k, hk, hdate⟩ := h (plainFrame 1 1) (by decide) rfl
    have hfilter : ∀ k ∈ twoMasters.keywordsOf 1, k.keyword ≠ "DATE-OBS".toList := by decide
    exact hfilter k hk hdate

end Masters

end StarBase.Scan
