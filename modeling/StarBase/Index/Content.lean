import StarBase.Index.StoreSpec

/-!
# The content of a file, as the index knows it

The content key of a file depends only on which fingerprint each of its HDUs has.

* `mem_contentKey` — **PROVED**: the fingerprints in the key are those of the file's frames;
* `contentKey_congr` — **PROVED**: two files with the same fingerprint at every HDU have one key;
* `contentKey_of_header` — **PROVED**: a file with just the frames of a header has that header's
  key.
-/

namespace StarBase

open Relational Extract

section Content

variable [Host]

/-- The fingerprint of the frame of an HDU. -/
def IndexDb.fingerprintAt (db : IndexDb) (i hdu : ℕ) : Option Str :=
  (db.frames.get (i, hdu)).map FrameRow.fingerprint

/-- HDU and fingerprint of a file's frames in HDU order. -/
def IndexDb.marks (db : IndexDb) (i : ℕ) : List (ℕ × Str) :=
  (db.framesOf i).map fun f => (f.hdu, f.fingerprint)

theorem contentKey_eq_marks (db : IndexDb) (i : ℕ) : db.contentKey i = (db.marks i).map Prod.snd := by
  unfold IndexDb.contentKey IndexDb.marks
  rw [List.map_map]
  rfl

theorem mem_framesOf {db : IndexDb} {i : ℕ} {f : FrameRow} :
    f ∈ db.framesOf i ↔ f ∈ db.frames.rows ∧ f.fileId = i := by
  unfold IndexDb.framesOf
  rw [List.mem_insertionSort]
  simp [List.mem_filter]

theorem mem_framesOf_iff_get {db : IndexDb} {i : ℕ} {f : FrameRow} :
    f ∈ db.framesOf i ↔ db.frames.get (i, f.hdu) = some f := by
  rw [mem_framesOf, Table.get_eq_some_iff]
  show _ ↔ f ∈ db.frames.rows ∧ (f.fileId, f.hdu) = (i, f.hdu)
  simp

/-- The frame of an HDU, found by its key. -/
theorem hdu_of_get {db : IndexDb} {i h : ℕ} {f : FrameRow} (hf : db.frames.get (i, h) = some f) :
    f.fileId = i ∧ f.hdu = h :=
  ⟨congrArg Prod.fst (Table.get_key hf), congrArg Prod.snd (Table.get_key hf)⟩

theorem mem_marks {db : IndexDb} {i h : ℕ} {x : Str} :
    (h, x) ∈ db.marks i ↔ db.fingerprintAt i h = some x := by
  unfold IndexDb.marks IndexDb.fingerprintAt
  rw [List.mem_map, Option.map_eq_some_iff]
  constructor
  · intro hm
    obtain ⟨f, hf, he⟩ := hm
    cases he
    exact ⟨f, mem_framesOf_iff_get.mp hf, rfl⟩
  · intro hm
    obtain ⟨f, hf, rfl⟩ := hm
    obtain ⟨hid, rfl⟩ := hdu_of_get hf
    exact ⟨f, mem_framesOf_iff_get.mpr hf, rfl⟩

/-- The HDUs come in increasing order, each once. -/
theorem marks_sorted (db : IndexDb) (i : ℕ) :
    (db.marks i).Pairwise fun p q => p.1 < q.1 := by
  unfold IndexDb.marks
  rw [List.pairwise_map]
  have hle : (db.framesOf i).Pairwise fun f g => f.hdu ≤ g.hdu := by
    have : Std.Total fun f g : FrameRow => f.hdu ≤ g.hdu := ⟨fun f g => le_total _ _⟩
    have : IsTrans FrameRow fun f g => f.hdu ≤ g.hdu := ⟨fun f g k => le_trans⟩
    exact List.pairwise_insertionSort _ _
  have hnd : (db.framesOf i).Nodup :=
    (List.perm_insertionSort _ _).nodup_iff.mpr (db.frames.rows_nodup.filter _)
  refine (hle.and hnd).imp_of_mem fun {f g} hf hg hfg => lt_of_le_of_ne hfg.1 fun he => hfg.2 ?_
  have hgf := mem_framesOf_iff_get.mp hf
  have hgg := mem_framesOf_iff_get.mp hg
  have he' : f.hdu = g.hdu := he
  rw [he', hgg] at hgf
  exact (Option.some.inj hgf).symm

omit [Host] in
/-- Lists sorted by their first components are equal when they have the same members. -/
theorem eq_of_sorted_of_mem_iff {l m : List (ℕ × Str)} (hl : l.Pairwise fun p q => p.1 < q.1)
    (hm : m.Pairwise fun p q => p.1 < q.1) (h : ∀ p, p ∈ l ↔ p ∈ m) : l = m := by
  have : Std.Irrefl fun p q : ℕ × Str => p.1 < q.1 := ⟨fun p => lt_irrefl _⟩
  have : Std.Antisymm fun p q : ℕ × Str => p.1 < q.1 :=
    ⟨fun p q hpq hqp => absurd hpq (lt_asymm hqp)⟩
  exact hl.eq_of_mem_iff hm h

theorem marks_congr {d db : IndexDb} {i j : ℕ}
    (h : ∀ hdu, d.fingerprintAt i hdu = db.fingerprintAt j hdu) : d.marks i = db.marks j := by
  refine eq_of_sorted_of_mem_iff (marks_sorted d i) (marks_sorted db j) fun p => ?_
  rw [mem_marks, mem_marks, h p.1]

theorem contentKey_congr {d db : IndexDb} {i j : ℕ}
    (h : ∀ hdu, d.fingerprintAt i hdu = db.fingerprintAt j hdu) :
    d.contentKey i = db.contentKey j := by
  rw [contentKey_eq_marks, contentKey_eq_marks, marks_congr h]

theorem mem_contentKey {db : IndexDb} {i : ℕ} {x : Str} :
    x ∈ db.contentKey i ↔ ∃ hdu, db.fingerprintAt i hdu = some x := by
  rw [contentKey_eq_marks, List.mem_map]
  constructor
  · intro h
    obtain ⟨⟨hdu, y⟩, hm, rfl⟩ := h
    exact ⟨hdu, mem_marks.mp hm⟩
  · intro h
    obtain ⟨hdu, hx⟩ := h
    exact ⟨(hdu, x), mem_marks.mpr hx, rfl⟩

theorem contentKey_eq_nil_iff {db : IndexDb} {i : ℕ} :
    db.contentKey i = [] ↔ ∀ hdu, db.frames.get (i, hdu) = none := by
  rw [List.eq_nil_iff_forall_not_mem]
  constructor
  · intro h hdu
    cases hf : db.frames.get (i, hdu) with
    | none => rfl
    | some f =>
      refine absurd (mem_contentKey.mpr ⟨hdu, ?_⟩) (h f.fingerprint)
      unfold IndexDb.fingerprintAt
      rw [hf]
      rfl
  · intro h x hx
    obtain ⟨hdu, he⟩ := mem_contentKey.mp hx
    unfold IndexDb.fingerprintAt at he
    rw [h hdu] at he
    cases he

/-- A file that is not in the table has no frames. -/
theorem frames_get_of_no_file {db : IndexDb} {i : ℕ} (h : i ∉ db.files.ids) (hdu : ℕ) :
    db.frames.get (i, hdu) = none := by
  cases hf : db.frames.get (i, hdu) with
  | none => rfl
  | some f =>
    have hfk := db.frames_fk f (Table.get_mem hf)
    rw [(hdu_of_get hf).1] at hfk
    exact absurd hfk h

theorem not_mem_ids_of_next_le {db : IndexDb} {i : ℕ} (h : db.files.next ≤ i) :
    i ∉ db.files.ids := by
  intro hi
  obtain ⟨r, hr, rfl⟩ := Table.mem_ids.mp hi
  have := db.files.id_lt r hr
  omega

theorem FramesKept.fingerprintAt {i : ℕ} {db d : IndexDb} (h : FramesKept i db d) (hdu : ℕ) :
    d.fingerprintAt i hdu = db.fingerprintAt i hdu := by
  unfold IndexDb.fingerprintAt
  rw [h.frames]

theorem FramesKept.contentKey {i : ℕ} {db d : IndexDb} (h : FramesKept i db d) :
    d.contentKey i = db.contentKey i :=
  contentKey_congr h.fingerprintAt

/-! ### The content of a header -/

/-- The fingerprint a header gives an HDU. -/
def RawHeader.fingerprintAt (header : RawHeader) (hdu : ℕ) : Option Str :=
  (header.imageHdus.find? fun h => h.index = hdu).map fingerprint

omit [Host] in
theorem find_hdu_eq_some_iff {header : RawHeader} {hdu : ℕ} {h : Hdu} :
    (header.imageHdus.find? fun g => g.index = hdu) = some h ↔
      h ∈ header.imageHdus ∧ h.index = hdu := by
  constructor
  · intro he
    exact ⟨List.mem_of_find?_eq_some he, by simpa using List.find?_some he⟩
  · intro hh
    obtain ⟨hmem, hidx⟩ := hh
    cases hf : header.imageHdus.find? fun g => decide (g.index = hdu) with
    | none =>
      have := List.find?_eq_none.mp hf h hmem
      simp [hidx] at this
    | some g =>
      have hg : g ∈ header.imageHdus := List.mem_of_find?_eq_some hf
      have hgi : g.index = hdu := by simpa using List.find?_some hf
      rw [List.inj_on_of_nodup_map (imageHdus_nodup header) hg hmem (hgi.trans hidx.symm)]

/-- The fingerprint a stored file has at an HDU: that of the header, or the one it had. -/
theorem FileStored.fingerprintAt {ctx : StoreContext} {header : RawHeader} {fid : ℕ}
    {db d : IndexDb} (h : FileStored ctx header.imageHdus fid db d) (hdu : ℕ) :
    d.fingerprintAt fid hdu = (header.fingerprintAt hdu).or (db.fingerprintAt fid hdu) := by
  unfold RawHeader.fingerprintAt
  cases hf : header.imageHdus.find? fun g => decide (g.index = hdu) with
  | none =>
    have hnone : ∀ g ∈ header.imageHdus, g.index ≠ hdu := by
      intro g hg he
      have := List.find?_eq_none.mp hf g hg
      simp [he] at this
    unfold IndexDb.fingerprintAt
    rw [h.kept hdu hnone]
    rfl
  | some g =>
    obtain ⟨hg, rfl⟩ := find_hdu_eq_some_iff.mp hf
    obtain ⟨f, ids, i, -, -, hget, -⟩ := h.written g hg
    unfold IndexDb.fingerprintAt
    rw [hget]
    cases db.frames.get (fid, g.index) <;> rfl

/-- The file `i` has the frames of a header, HDU by HDU. -/
def SameContent (db : IndexDb) (i : ℕ) (header : RawHeader) : Prop :=
  ∀ hdu, db.fingerprintAt i hdu = header.fingerprintAt hdu

theorem sameContent_iff {db : IndexDb} {i : ℕ} {header : RawHeader} :
    SameContent db i header ↔
      (∀ f ∈ db.framesOf i, header.fingerprintAt f.hdu = some f.fingerprint) ∧
        ∀ h ∈ header.imageHdus, db.fingerprintAt i h.index = some (fingerprint h) := by
  have hheader : ∀ hdu x, header.fingerprintAt hdu = some x ↔
      ∃ h ∈ header.imageHdus, h.index = hdu ∧ fingerprint h = x := by
    intro hdu x
    unfold RawHeader.fingerprintAt
    rw [Option.map_eq_some_iff]
    simp only [find_hdu_eq_some_iff, and_assoc]
  have hdb : ∀ hdu x, db.fingerprintAt i hdu = some x ↔
      ∃ f ∈ db.framesOf i, f.hdu = hdu ∧ f.fingerprint = x := by
    intro hdu x
    rw [← mem_marks]
    unfold IndexDb.marks
    rw [List.mem_map]
    simp only [Prod.mk.injEq]
  constructor
  · intro h
    refine ⟨fun f hf => ?_, fun g hg => ?_⟩
    · rw [← h f.hdu]
      exact (hdb _ _).mpr ⟨f, hf, rfl, rfl⟩
    · rw [h g.index]
      exact (hheader _ _).mpr ⟨g, hg, rfl, rfl⟩
  · intro h hdu
    ext x
    rw [hdb]
    constructor
    · intro hx
      obtain ⟨f, hf, rfl, rfl⟩ := hx
      exact h.1 f hf
    · intro hx
      obtain ⟨g, hg, rfl, rfl⟩ := (hheader _ _).mp hx
      exact (hdb _ _).mp (h.2 g hg)

instance decidableSameContent (db : IndexDb) (i : ℕ) (header : RawHeader) :
    Decidable (SameContent db i header) :=
  decidable_of_iff _ sameContent_iff.symm

/-- Storing the content a file has already leaves its content. -/
theorem FileStored.same {ctx : StoreContext} {header : RawHeader} {fid : ℕ} {db d : IndexDb}
    (h : FileStored ctx header.imageHdus fid db d) (hsame : SameContent db fid header) :
    SameContent d fid header := by
  intro hdu
  rw [h.fingerprintAt hdu, hsame hdu]
  cases header.fingerprintAt hdu <;> rfl

/-- A file stored for the first time has the content of its header. -/
theorem FileStored.sameContent_of_new {ctx : StoreContext} {header : RawHeader} {fid : ℕ}
    {db d : IndexDb} (h : FileStored ctx header.imageHdus fid db d) (hnew : fid ∉ db.files.ids) :
    SameContent d fid header := by
  intro hdu
  rw [h.fingerprintAt hdu]
  unfold IndexDb.fingerprintAt
  rw [frames_get_of_no_file hnew hdu]
  cases header.fingerprintAt hdu <;> rfl

theorem contentKey_of_header {d db : IndexDb} {i j : ℕ} {header : RawHeader}
    (hi : SameContent d i header) (hj : SameContent db j header) :
    d.contentKey i = db.contentKey j :=
  contentKey_congr fun hdu => (hi hdu).trans (hj hdu).symm

end Content

end StarBase
