import StarBase.Index.Content
import StarBase.Index.StoreAttempts

/-!
# What a store replaces

* `Replaced` — the file's frames and cards are those of the header, and nothing else changed;
* `storeFileTx_replaces_iff` — **PROVED**: that is what attempts that return leave, exactly if the
  file had no frame of an HDU that the header lacks.

Cards are compared as the columns hold them: the keyword cut to 72 characters, value and comment to
256.
-/

namespace StarBase

open Relational Extract Transactions

section Exact

variable [Host]

/-! ### The cards of other frames -/

/-- Storing an HDU touches the cards of its own frame only. -/
theorem storeHdu_otherCards {ctx : StoreContext} {fid : ℕ} {h : Hdu} {s t : StoreState}
    (hs : storeHdu ctx fid h s = (.ok (), t)) {i : ℕ}
    (hi : ∀ f, t.db.frames.get (fid, h.index) = some f → f.id ≠ i) :
    t.db.keywordsOf i = s.db.keywordsOf i := by
  obtain ⟨f, db, frame, -, hput, hget, -, rfl⟩ := storeHdu_inv hs
  show (db.replaceKeywords frame.id (cardRows frame.id h.cards)).keywordsOf i = _
  rw [keywordsOf_replace, if_neg (hi frame hget).symm]
  unfold IndexDb.keywordsOf
  rw [(putFrame_ok hput).2.2.2.2.1, (resolveEquipment_grows ctx.registry f s).keywords]

theorem storeHdus_otherCards {ctx : StoreContext} {fid : ℕ} {hdus : List Hdu}
    (hnd : (hdus.map Hdu.index).Nodup) {s t : StoreState} {i : ℕ}
    (hs : storeHdus ctx fid hdus s = (.ok (), t))
    (hi : ∀ hdu f, t.db.frames.get (fid, hdu) = some f → f.id ≠ i) :
    t.db.keywordsOf i = s.db.keywordsOf i := by
  induction hdus generalizing s with
  | nil =>
    cases hs
    rfl
  | cons h rest ih =>
    rw [List.map_cons, List.nodup_cons] at hnd
    unfold storeHdus at hs
    cases hone : storeHdu ctx fid h s with
    | mk res u =>
      rw [hone] at hs
      cases res with
      | error e => cases hs
      | ok _ =>
        dsimp only at hs
        have hstored := (storeHdus_ok hnd.2 hs).1
        rw [ih hnd.2 hs]
        refine storeHdu_otherCards hone fun f hf => hi h.index f ?_
        rw [hstored.kept h.index fun g hg he => hnd.1 (he ▸ List.mem_map_of_mem hg)]
        exact hf

/-- Storing a file touches the cards of its own frames only. -/
theorem storeFile_otherCards {ctx : StoreContext} {now : Micros} {info : FileInfo}
    {header : RawHeader} {s t : StoreState} {i : ℕ}
    (h : storeFile ctx now info header s = (.ok (), t))
    (hi : ∀ hdu f, t.db.frames.get
      ((info.storedOver now s.db.files.next (s.db.files.get info.key)).id, hdu) = some f → f.id ≠ i) :
    t.db.keywordsOf i = s.db.keywordsOf i := by
  have hcards := storeHdus_otherCards (imageHdus_nodup header) (storeFile_eq_ok_iff.mp h).2 hi
  exact hcards

/-! ### Replacement -/

/-- The row holds a frame's card: its place, its keyword, value and comment cut to the columns'
widths, an empty value or comment `NULL`. -/
structure HoldsCard (i n : ℕ) (c : Card) (k : KeywordRow) : Prop where
  frame : k.frameId = i
  ord : k.ord = n
  keyword : k.keyword = c.keyword.take 72
  value : k.value = if c.value = [] then none else some (c.value.take 256)
  comment : k.comment = if c.comment = [] then none else some (c.comment.take 256)

/-- The rows are those of a frame's cards, numbered from 0 in their order. -/
structure HoldsCards (i : ℕ) (cards : List Card) (ks : List KeywordRow) : Prop where
  count : ks.length = cards.length
  each : ∀ n k c, ks[n]? = some k → cards[n]? = some c → HoldsCard i n c k

omit [Host] in
theorem holdsCard_iff {i n : ℕ} {c : Card} {k : KeywordRow} :
    HoldsCard i n c k ↔ k = cardRow i n c := by
  obtain ⟨frame, ord, keyword, value, comment⟩ := k
  constructor
  · rintro ⟨hframe, hord, hkeyword, hvalue, hcomment⟩
    dsimp only at hframe hord hkeyword hvalue hcomment
    rw [hframe, hord, hkeyword, hvalue, hcomment]
    rfl
  · intro h
    rw [h]
    exact ⟨rfl, rfl, rfl, rfl, rfl⟩

omit [Host] in
/-- The rows of a frame's cards are those that are stored. -/
theorem holdsCards_iff {i : ℕ} {cards : List Card} {ks : List KeywordRow} :
    HoldsCards i cards ks ↔ ks = cardRows i cards := by
  have hget : ∀ n, (cardRows i cards)[n]? = cards[n]?.map (cardRow i n) := fun _ =>
    List.getElem?_mapIdx
  constructor
  · intro h
    refine List.ext_getElem? fun n => ?_
    rw [hget]
    cases hc : cards[n]? with
    | none =>
      rw [List.getElem?_eq_none_iff] at hc
      rw [Option.map_none, List.getElem?_eq_none_iff, h.count]
      exact hc
    | some c =>
      have hn : n < ks.length := by
        rw [h.count]
        exact (List.getElem?_eq_some_iff.mp hc).1
      have hk := List.getElem?_eq_getElem hn
      rw [hk, Option.map_some, holdsCard_iff.mp (h.each n _ c hk hc)]
  · rintro rfl
    refine ⟨List.length_mapIdx, fun n k c hk hc => ?_⟩
    rw [hget, hc] at hk
    exact holdsCard_iff.mpr (Option.some.inj hk).symm

/-- Between `db` and `d` the file got the frames and cards of the header, and nothing else
changed. -/
structure Replaced (info : FileInfo) (header : RawHeader) (db d : IndexDb) (row : FileRow) :
    Prop where
  file : d.files.get info.key = some row
  frames : ∀ hdu, (d.frames.get (row.id, hdu)).isSome ↔ ∃ h ∈ header.imageHdus, h.index = hdu
  cards : ∀ h ∈ header.imageHdus, ∀ f, d.frames.get (row.id, h.index) = some f →
    HoldsCards f.id h.cards (d.keywordsOf f.id)
  otherFiles : ∀ k, k ≠ info.key → d.files.get k = db.files.get k
  otherFrames : ∀ i, i ≠ row.id → ∀ hdu, d.frames.get (i, hdu) = db.frames.get (i, hdu)
  otherCards : ∀ i, (∀ hdu f, d.frames.get (row.id, hdu) = some f → f.id ≠ i) →
    d.keywordsOf i = db.keywordsOf i

/-- Every frame of the file is of an HDU that the header has. -/
def NoneStale (info : FileInfo) (header : RawHeader) (db : IndexDb) : Prop :=
  ∀ row, db.files.get info.key = some row → ∀ f ∈ db.frames.rows, f.fileId = row.id →
    ∃ h ∈ header.imageHdus, h.index = f.hdu

/-- One store replaces the file's frames exactly if none of them is stale. -/
theorem storeFile_replaces_iff {ctx : StoreContext} {now : Micros} {info : FileInfo}
    {header : RawHeader} {s t : StoreState} (h : storeFile ctx now info header s = (.ok (), t)) :
    (∃ row, Replaced info header s.db t.db row) ↔ NoneStale info header s.db := by
  obtain ⟨hfiles, hstored, -, -⟩ := storeFile_ok h
  have hfile : t.db.files.get info.key =
      some (info.storedOver now s.db.files.next (s.db.files.get info.key)) := by
    rw [hfiles, Table.get_upsert_self]
    rfl
  have hid : ∀ row, s.db.files.get info.key = some row →
      (info.storedOver now s.db.files.next (s.db.files.get info.key)).id = row.id := by
    intro row hrow
    rw [hrow]
    rfl
  constructor
  · rintro ⟨row, hrep⟩ old hold f hf hfid
    have hrow : row.id = old.id := by
      rw [hrep.file] at hfile
      rw [Option.some.inj hfile]
      exact hid old hold
    by_contra hstale
    have hget : s.db.frames.get (old.id, f.hdu) = some f := by
      rw [← hfid]
      exact Table.get_of_mem hf
    have hkept := hstored.kept f.hdu fun g hg he => hstale ⟨g, hg, he⟩
    rw [hid old hold, hget] at hkept
    refine hstale ((hrep.frames f.hdu).mp ?_)
    rw [hrow, hkept]
    rfl
  · intro hnone
    refine ⟨_, hfile, fun hdu => ?_, fun g hg f hf => ?_, fun k hk => ?_, fun i hi hdu => ?_,
      fun i hi => storeFile_otherCards h hi⟩
    · constructor
      · intro hsome
        by_contra hlack
        have hkept := hstored.kept hdu fun g hg he => hlack ⟨g, hg, he⟩
        rw [hkept] at hsome
        obtain ⟨f, hf⟩ := Option.isSome_iff_exists.mp hsome
        cases hold : s.db.files.get info.key with
        | none =>
          rw [hold] at hf
          have hnew : s.db.files.next ∉ s.db.files.ids := not_mem_ids_of_next_le (le_refl _)
          cases (frames_get_of_no_file hnew hdu).symm.trans hf
        | some old =>
          rw [hid old hold] at hf
          obtain ⟨g, hg, hidx⟩ := hnone old hold f (Table.get_mem hf) (hdu_of_get hf).1
          exact hlack ⟨g, hg, hidx.trans (hdu_of_get hf).2⟩
      · rintro ⟨g, hg, rfl⟩
        obtain ⟨c, ids, i, -, -, hget, -⟩ := hstored.written g hg
        rw [hget]
        rfl
    · obtain ⟨c, ids, i, -, -, hget, hcards⟩ := hstored.written g hg
      rw [hget] at hf
      cases hf
      exact holdsCards_iff.mpr hcards
    · rw [hfiles]
      exact Table.get_upsert_ne hk
    · exact (hstored.others i hi).frames hdu

/-! ### Rows that are the same -/

theorem RowsKept.keywordsOf {db d : IndexDb} (h : RowsKept db d) (i : ℕ) :
    d.keywordsOf i = db.keywordsOf i := by
  unfold IndexDb.keywordsOf
  rw [h.keywords]

theorem RowsKept.noneStale_iff {db d : IndexDb} (h : RowsKept db d) {info : FileInfo}
    {header : RawHeader} : NoneStale info header d ↔ NoneStale info header db := by
  unfold NoneStale
  rw [h.frames, Table.get_of_rows h.files]

theorem RowsKept.replaced_iff {db d e : IndexDb} (h : RowsKept db d) {info : FileInfo}
    {header : RawHeader} {row : FileRow} :
    Replaced info header d e row ↔ Replaced info header db e row := by
  constructor
  · rintro ⟨hfile, hframes, hcards, hfiles, hothers, hkeys⟩
    refine ⟨hfile, hframes, hcards, fun k hk => ?_, fun i hi hdu => ?_, fun i hi => ?_⟩
    · rw [hfiles k hk, Table.get_of_rows h.files]
    · rw [hothers i hi hdu, Table.get_of_rows h.frames]
    · rw [hkeys i hi, h.keywordsOf]
  · rintro ⟨hfile, hframes, hcards, hfiles, hothers, hkeys⟩
    refine ⟨hfile, hframes, hcards, fun k hk => ?_, fun i hi hdu => ?_, fun i hi => ?_⟩
    · rw [hfiles k hk, Table.get_of_rows h.files]
    · rw [hothers i hi hdu, Table.get_of_rows h.frames]
    · rw [hkeys i hi, h.keywordsOf]

variable {ctx : StoreContext} {clock : ℕ → Micros} {info : FileInfo} {header : RawHeader}
variable {s : StoreState} {fs : Schedule StoreError}

/-- **What attempts that return replace**: the file's frames and cards, exactly if none of its
frames was of an HDU that the header lacks. -/
theorem storeFileTx_replaces_iff
    (h : (storeFileTx ctx clock info header s fs).result = .ok ()) :
    (∃ row, Replaced info header s.db (storeFileTx ctx clock info header s fs).store.db row) ↔
      NoneStale info header s.db := by
  obtain ⟨k, t, hkept, hstore⟩ := storeFileTx_ok h
  rw [← hkept.rows.noneStale_iff, ← storeFile_replaces_iff hstore]
  exact exists_congr fun row => hkept.rows.replaced_iff.symm

end Exact

section

attribute [local instance] plainHost

def plainStore : StoreContext := ⟨⟨[], []⟩, ⟨0⟩, {}⟩

def imageFile : FileInfo where
  rootId := 1
  relPath := "a.fits".toList
  filename := "a.fits".toList
  ext := ".fits".toList
  format := .fits
  bucket := .other
  sizeBytes := some 2880
  mtimeUtc := some 0
  inode := some 1
  caseSensitive := true

/-- A header of `n` image HDUs without a single card. -/
def imageHeader (n : ℕ) : RawHeader where
  hdus := (List.range n).map fun i => ⟨i, true, 16, 2, 10, 10, []⟩
  index_nodup := by
    rw [List.map_map]
    exact (List.map_id (List.range n)).symm ▸ List.nodup_range

/-- The file, stored with `n` image HDUs. -/
def imageStored (n : ℕ) : StoreState :=
  (storeFileTx plainStore (fun _ => 0) imageFile (imageHeader n) ⟨IndexDb.blank {}, {}⟩ []).store

/-- A header of one image HDU with these cards. -/
def notedHeader (cards : List Card) : RawHeader where
  hdus := [⟨0, true, 16, 2, 10, 10, cards⟩]
  index_nodup := List.nodup_singleton 0

def oldCards : List Card := [⟨"IMAGETYP".toList, "Light".toList, []⟩]

def newCards : List Card :=
  [⟨"IMAGETYP".toList, "Dark".toList, "type of frame".toList⟩, ⟨"OBJECT".toList, [], []⟩]

/-- The file, stored with the old cards. -/
def notedStored : StoreState :=
  (storeFileTx plainStore (fun _ => 0) imageFile (notedHeader oldCards) ⟨IndexDb.blank {}, {}⟩ []).store

/-- The same HDU again, with other cards. -/
theorem replaced_one : ∃ row, Replaced imageFile (notedHeader newCards) notedStored.db
    (storeFileTx plainStore (fun _ => 0) imageFile (notedHeader newCards) notedStored []).store.db
      row := by
  have hframes : ∀ f ∈ notedStored.db.frames.rows,
      ∃ h ∈ (notedHeader newCards).imageHdus, h.index = f.hdu := by decide
  exact (storeFileTx_replaces_iff (by decide)).mpr fun _ _ f hf _ => hframes f hf

/-- One HDU where there were two: the frame of the second stays. -/
theorem stale_frame_stays :
    (storeFileTx plainStore (fun _ => 0) imageFile (imageHeader 1) (imageStored 2) []).result =
      .ok () ∧
    ¬∃ row, Replaced imageFile (imageHeader 1) (imageStored 2).db
      (storeFileTx plainStore (fun _ => 0) imageFile (imageHeader 1) (imageStored 2) []).store.db
        row := by
  refine ⟨by decide, ?_⟩
  rintro ⟨row, hrep⟩
  have hids : ∀ r, (storeFileTx plainStore (fun _ => 0) imageFile (imageHeader 1) (imageStored 2)
      []).store.db.files.get imageFile.key = some r → r.id = 1 := by
    have hget : ((storeFileTx plainStore (fun _ => 0) imageFile (imageHeader 1) (imageStored 2)
        []).store.db.files.get imageFile.key).map FileRow.id = some 1 := by decide
    intro r hr
    rw [hr] at hget
    exact Option.some.inj hget
  have hstale : ((storeFileTx plainStore (fun _ => 0) imageFile (imageHeader 1) (imageStored 2)
      []).store.db.frames.get (1, 1)).isSome := by decide
  have hframes := hrep.frames 1
  rw [hids row hrep.file] at hframes
  obtain ⟨h, hh, hidx⟩ := hframes.mp hstale
  have hnone : ∀ h ∈ (imageHeader 1).imageHdus, h.index ≠ 1 := by decide
  exact hnone h hh hidx

end

end StarBase
