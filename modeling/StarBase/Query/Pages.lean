import StarBase.Lib.Paging
import StarBase.Names.Spelling
import StarBase.Query.Browse
import StarBase.Query.NumericLiteral

/-!
# Reading a result page by page

`POST /query` and `GET /frames` sort by columns that do not tell all rows apart, and every page is a
statement of its own, so rows that tie may come in another order on the next page.

* `ColumnOrder`, `rowLe` — how the server compares two rows by the sort keys of a statement;
* `Sorts` — the orders that `ORDER BY` allows;
* `queryPages`, `browsePages` — the pages at the offsets `0, limit, 2 * limit, ...`;
* `pages_once_iff` — **PROVED**: they list every matching frame exactly once, whatever the server
  chooses, exactly if no tie goes across two pages (and the bound on the offset of `GET /frames` is
  not reached).
-/

namespace StarBase.Query

open Relational Extract Paging StarBase.Action

/-! ### `ORDER BY` -/

/-- How the server orders the rows by one column, `NULL` included. -/
structure ColumnOrder where
  le : Str → ViewRow → ViewRow → Bool
  total : ∀ f a b, le f a b = true ∨ le f b a = true
  trans : ∀ f a b c, le f a b = true → le f b c = true → le f a c = true

namespace ColumnOrder

variable (C : ColumnOrder) {k : SortKey} {keys : List SortKey} {a b c : ViewRow}

def keyLe (k : SortKey) (a b : ViewRow) : Bool :=
  if k.desc then C.le k.field b a else C.le k.field a b

/-- By the first key, then by the next. -/
def rowLe : List SortKey → ViewRow → ViewRow → Bool
  | [], _, _ => true
  | k :: ks, a, b => C.keyLe k a b && (!C.keyLe k b a || rowLe ks a b)

theorem keyLe_total (k : SortKey) (a b : ViewRow) : C.keyLe k a b = true ∨ C.keyLe k b a = true := by
  unfold keyLe
  split
  · exact C.total _ _ _
  · exact C.total _ _ _

theorem keyLe_trans (hab : C.keyLe k a b = true) (hbc : C.keyLe k b c = true) :
    C.keyLe k a c = true := by
  unfold keyLe at *
  split
  · next h =>
    rw [if_pos h] at hab hbc
    exact C.trans _ _ _ _ hbc hab
  · next h =>
    rw [if_neg h] at hab hbc
    exact C.trans _ _ _ _ hab hbc

theorem rowLe_cons : C.rowLe (k :: keys) a b = true ↔
    C.keyLe k a b = true ∧ (C.keyLe k b a = true → C.rowLe keys a b = true) := by
  show (C.keyLe k a b && (!C.keyLe k b a || C.rowLe keys a b)) = true ↔ _
  cases C.keyLe k a b <;> cases C.keyLe k b a <;> simp

theorem rowLe_total (keys : List SortKey) (a b : ViewRow) :
    C.rowLe keys a b = true ∨ C.rowLe keys b a = true := by
  induction keys with
  | nil => exact Or.inl rfl
  | cons k keys ih =>
    rw [rowLe_cons, rowLe_cons]
    have := C.keyLe_total k a b
    tauto

theorem rowLe_trans (keys : List SortKey) {a b c : ViewRow} (hab : C.rowLe keys a b = true)
    (hbc : C.rowLe keys b c = true) : C.rowLe keys a c = true := by
  induction keys with
  | nil => rfl
  | cons k keys ih =>
    rw [rowLe_cons] at hab hbc ⊢
    refine ⟨C.keyLe_trans hab.1 hbc.1, fun hca => ?_⟩
    exact ih (hab.2 (C.keyLe_trans hbc.1 hca)) (hbc.2 (C.keyLe_trans hca hab.1))

/-- The order of a statement. -/
def Le (keys : List SortKey) (a b : ViewRow) : Prop := C.rowLe keys a b = true

instance (keys : List SortKey) : DecidableRel (C.Le keys) := fun _ _ =>
  inferInstanceAs (Decidable (_ = true))

instance (keys : List SortKey) : Std.Total (C.Le keys) := ⟨C.rowLe_total keys⟩

instance (keys : List SortKey) : IsTrans ViewRow (C.Le keys) := ⟨fun _ _ _ => C.rowLe_trans keys⟩

end ColumnOrder

/-- A server that sorts by the keys of a statement. -/
def Sorts (C : ColumnOrder) (order : List SortKey → ServerOrder ViewRow) : Prop :=
  ∀ keys rows, ((order keys).arrange rows).Pairwise (C.Le keys)

/-- The choices of a server that sorts are the sorted arrangements of the rows. -/
theorem forall_orders_iff {C : ColumnOrder} {keys : List SortKey} {rows : List ViewRow}
    {P : (ℕ → List ViewRow) → Prop} :
    (∀ orders : ℕ → List SortKey → ServerOrder ViewRow, (∀ i, Sorts C (orders i)) →
      P fun i => (orders i keys).arrange rows) ↔
    ∀ arr : ℕ → List ViewRow, (∀ i, Arranged (C.Le keys) rows (arr i)) → P arr := by
  constructor
  · intro h arr harr
    let orders : ℕ → List SortKey → ServerOrder ViewRow := fun i ks =>
      { arrange := fun l => if ks = keys ∧ l = rows then arr i else l.insertionSort (C.Le ks)
        perm := by
          intro l
          split
          · next hsame =>
            rw [hsame.2]
            exact (harr i).perm
          · exact List.perm_insertionSort _ _ }
    have hsorts : ∀ i, Sorts C (orders i) := by
      intro i ks l
      show (if ks = keys ∧ l = rows then arr i else l.insertionSort (C.Le ks)).Pairwise (C.Le ks)
      split
      · next hsame =>
        rw [hsame.1]
        exact (harr i).sorted
      · exact List.pairwise_insertionSort _ _
    have hchosen : (fun i => (orders i keys).arrange rows) = arr := by
      funext i
      exact if_pos ⟨rfl, rfl⟩
    rw [← hchosen]
    exact h orders hsorts
  · intro h orders hsorts
    exact h _ fun i => ⟨(orders i keys).perm rows, hsorts i keys rows⟩

/-! ### The pages of the two routes -/

section Routes

variable [Host] (truth : Truth) (C : ColumnOrder) (db : IndexDb) (roots : List RootRow)

/-- The body of a page of `POST /query`. -/
def pageBody (filter sort : Json) (limit offset : Int) (includeMissing : Bool) : Json :=
  .obj [("filter".toList, filter), ("sort".toList, sort), ("limit".toList, .int limit),
    ("offset".toList, .int offset), ("include_missing".toList, .bool includeMissing)]

/-- The page size that `POST /query` answers with. -/
def queryLimit (limit : Int) : ℕ := (max 1 (min 500 limit)).toNat

/-- The frames that match a query. -/
def queryRows (cond : Cond) (named : List Str) (includeMissing : Bool) : List ViewRow :=
  (vFrames db roots).filter
    (shows truth cond (!includeMissing && !named.contains "file_status".toList))

/-- However the server breaks ties, the pages of `POST /query` list every row exactly once. -/
def QueryPagesOnce (filter sort : Json) (limit : Int) (includeMissing : Bool)
    (rows : List ViewRow) : Prop :=
  ∀ orders : ℕ → List SortKey → ServerOrder ViewRow, (∀ i, Sorts C (orders i)) →
    ∃ page : ℕ → QueryPage,
      (∀ i : ℕ, postQuery truth (orders i) db roots
        (pageBody filter sort limit ((i * queryLimit limit : ℕ) : Int) includeMissing) =
          .ok (page i)) ∧
      ((List.range (pageCount rows.length (queryLimit limit))).flatMap fun i =>
        (page i).frames).Perm rows

/-- The request of a page of `GET /frames`. -/
def BrowseRequest.atOffset (req : BrowseRequest) (offset : ℕ) : BrowseRequest :=
  { req with offset := some (natText offset) }

/-- The frames that match the parameters. -/
def browseRows (req : BrowseRequest) : List ViewRow :=
  (vFrames db roots).filter
    (shows truth (browseCond req) (decide (req.includeMissing ≠ "1".toList)))

/-- The same of the pages of `GET /frames`. -/
def BrowsePagesOnce (req : BrowseRequest) : Prop :=
  ∀ orders : ℕ → List SortKey → ServerOrder ViewRow, (∀ i, Sorts C (orders i)) →
    ((List.range (pageCount (browseRows truth db roots req).length (browseLimit req))).flatMap
      fun i => (browse truth (orders i) db roots (req.atOffset (i * browseLimit req))).frames).Perm
        (browseRows truth db roots req)

/-- Newest first. -/
def newestFirst : List SortKey := [⟨"date_obs_utc".toList, true⟩]

/-- The answer to a page whose filter and sort compile. -/
def queryPage (order : List SortKey → ServerOrder ViewRow) (cond : Cond) (keys : List SortKey)
    (named : List Str) (limit : Int) (offset : ℕ) (includeMissing : Bool) : QueryPage :=
  let hideMissing := !includeMissing && !named.contains "file_status".toList
  { total := (queryRows truth db roots cond named includeMissing).length
    missingHidden := if hideMissing then ((vFrames db roots).filter fun v =>
      selects truth cond v && v.file.status = .missing).length else 0
    limit := queryLimit limit
    offset := (max 0 (offset : Int)).toNat
    condition := cond
    hideMissing := hideMissing
    queryFields := named
    frames := (((order keys).arrange (queryRows truth db roots cond named includeMissing)).drop
      (max 0 (offset : Int)).toNat).take (queryLimit limit) }

variable {truth C db roots}

theorem postQuery_page {order : List SortKey → ServerOrder ViewRow} {filter sort : Json}
    {cond : Cond} {keys : List SortKey} {named : List Str} {limit : Int} {offset : ℕ}
    {includeMissing : Bool} (hc : compileFilter filter = .ok cond)
    (hs : compileSort sort = .ok keys) (hn : filterFields filter = .ok named) :
    postQuery truth order db roots (pageBody filter sort limit offset includeMissing) =
      .ok (queryPage truth db roots order cond keys named limit offset includeMissing) := by
  unfold postQuery
  refine compile_bind_ok_iff.mpr ⟨filter, rfl, compile_bind_ok_iff.mpr ⟨cond, hc, ?_⟩⟩
  refine compile_bind_ok_iff.mpr ⟨sort, rfl, compile_bind_ok_iff.mpr ⟨keys, hs, ?_⟩⟩
  refine compile_bind_ok_iff.mpr ⟨limit, rfl, compile_bind_ok_iff.mpr ⟨offset, rfl, ?_⟩⟩
  refine compile_bind_ok_iff.mpr ⟨named, by rw [hn]; rfl, ?_⟩
  exact compile_bind_ok_iff.mpr ⟨includeMissing, rfl, rfl⟩

theorem queryPage_frames {order : List SortKey → ServerOrder ViewRow} {cond : Cond}
    {keys : List SortKey} {named : List Str} {limit : Int} {offset : ℕ} {includeMissing : Bool} :
    (queryPage truth db roots order cond keys named limit offset includeMissing).frames =
      (((order keys).arrange (queryRows truth db roots cond named includeMissing)).drop
        offset).take (queryLimit limit) := by
  have hoffset : (max 0 (offset : Int)).toNat = offset := by omega
  unfold queryPage
  dsimp only
  rw [hoffset]

omit [Host] in
theorem browseOffset_atOffset {req : BrowseRequest} {k : ℕ} (hk : k < 2 ^ 63) :
    browseOffset (req.atOffset k) = min k 100000000 := by
  have hstol : stol (natText k) = .ok (k : Int) := by
    unfold stol
    rw [scanInteger_natText]
    exact if_pos ⟨by omega, by exact_mod_cast hk⟩
  show (qint (some (natText k)) 0 0 100000000).toNat = _
  unfold qint
  dsimp only
  rw [hstol]
  dsimp only
  omega

theorem filter_nodup (p : ViewRow → Bool) : ((vFrames db roots).filter p).Nodup := by
  refine List.Nodup.filter _ ?_
  unfold vFrames
  refine List.Nodup.filterMap ?_ db.frames.rows_nodup
  intro a b v ha hb
  rw [← viewRow_frame ha, ← viewRow_frame hb]

/-- `POST /query`. -/
theorem queryPagesOnce_iff {filter sort : Json} {cond : Cond} {keys : List SortKey}
    {named : List Str} {limit : Int} {includeMissing : Bool} (hc : compileFilter filter = .ok cond)
    (hs : compileSort sort = .ok keys) (hn : filterFields filter = .ok named) :
    QueryPagesOnce truth C db roots filter sort limit includeMissing
        (queryRows truth db roots cond named includeMissing) ↔
      NoTieAcross (C.Le keys) (queryRows truth db roots cond named includeMissing)
        (queryLimit limit) := by
  have hl : 0 < queryLimit limit := by
    unfold queryLimit
    omega
  have hnd : (queryRows truth db roots cond named includeMissing).Nodup := filter_nodup _
  rw [← pages_perm_iff hl hnd, ← forall_orders_iff]
  refine forall₂_congr fun orders _ => ?_
  constructor
  · rintro ⟨page, hpage, hperm⟩
    have hframes : ∀ i, (page i).frames = (((orders i keys).arrange (queryRows truth db roots cond
        named includeMissing)).drop (i * queryLimit limit)).take (queryLimit limit) := by
      intro i
      have hi := hpage i
      rw [postQuery_page hc hs hn] at hi
      rw [← Except.ok.inj hi, queryPage_frames]
    simp only [hframes] at hperm
    exact hperm
  · intro hperm
    refine ⟨fun i => queryPage truth db roots (orders i) cond keys named limit
      (i * queryLimit limit) includeMissing, fun i => postQuery_page hc hs hn, ?_⟩
    simp only [queryPage_frames]
    exact hperm

/-- `GET /frames`. -/
theorem browsePagesOnce_iff {req : BrowseRequest} : BrowsePagesOnce truth C db roots req ↔
    (browseRows truth db roots req).length ≤
        (100000000 / browseLimit req + 1) * browseLimit req ∧
      NoTieAcross (C.Le newestFirst) (browseRows truth db roots req) (browseLimit req) := by
  obtain ⟨hl, hmax⟩ := browseLimit_mem req
  have hnd : (browseRows truth db roots req).Nodup := filter_nodup _
  have hoff : ∀ i, i * browseLimit req ≤ 100000000 + browseLimit req →
      browseOffset (req.atOffset (i * browseLimit req)) = min (i * browseLimit req) 100000000 :=
    fun i hi => browseOffset_atOffset (by omega)
  rw [← pagesAt_perm_iff hl hnd hoff, ← forall_orders_iff]
  exact forall₂_congr fun orders _ => Iff.rfl

/-- **Pages, exactly.**  The pages of `POST /query` list every matching frame exactly once, however
the server breaks ties, exactly if no tie goes across two pages; those of `GET /frames`, if besides
its bound on the offset is not passed. -/
theorem pages_once_iff {filter sort : Json} {cond : Cond} {keys : List SortKey} {named : List Str}
    (hc : compileFilter filter = .ok cond) (hs : compileSort sort = .ok keys)
    (hn : filterFields filter = .ok named) (limit : Int) (includeMissing : Bool)
    (req : BrowseRequest) :
    (QueryPagesOnce truth C db roots filter sort limit includeMissing
        (queryRows truth db roots cond named includeMissing) ↔
      NoTieAcross (C.Le keys) (queryRows truth db roots cond named includeMissing)
        (queryLimit limit)) ∧
    (BrowsePagesOnce truth C db roots req ↔
      (browseRows truth db roots req).length ≤
          (100000000 / browseLimit req + 1) * browseLimit req ∧
        NoTieAcross (C.Le newestFirst) (browseRows truth db roots req) (browseLimit req)) :=
  ⟨queryPagesOnce_iff hc hs hn, browsePagesOnce_iff⟩

end Routes

/-! ### Two dated frames, and two undated ones -/

section Values

attribute [local instance] plainHost

/-- A frame of the file with the same id. -/
def pagedFrame (id : ℕ) (date : Option Str) : FrameRow :=
  ⟨id, id, 0, [], { imageType := .light, dateObsUtc := date }, {}, none, none⟩

/-- Two files with one frame each. -/
def pagedDb (first second : Option Str) : IndexDb where
  files := twoNights.files
  frames := ⟨[pagedFrame 1 first, pagedFrame 2 second], 3, by simp [pagedFrame, frameKeying],
    by simp [pagedFrame, frameKeying], by simp [pagedFrame, frameKeying]⟩
  keywords := []
  cameras := Table.empty nameKeying
  filters := Table.empty nameKeying
  operator := {}
  frameTags := []
  collectionFrames := []
  frames_fk := by
    intro f hf
    rw [List.mem_cons, List.mem_singleton] at hf
    rcases hf with rfl | rfl
    · exact (by decide : 1 ∈ twoNights.files.ids)
    · exact (by decide : 2 ∈ twoNights.files.ids)

/-- Dates of one month by their day, nothing before all of them. -/
def dateKey (f : Str) (v : ViewRow) : WithBot ℕ :=
  if f = "date_obs_utc".toList then
    (v.frame.cols.dateObsUtc.bind fun d =>
      [("2024-01-01 22:00:00".toList, 1), ("2024-01-02 22:00:00".toList, 2)].lookup d).elim ⊥
        WithBot.some
  else ⊥

def byDate : ColumnOrder where
  le f a b := decide (dateKey f a ≤ dateKey f b)
  total f a b := by simpa using le_total (dateKey f a) (dateKey f b)
  trans f a b c := by simpa using le_trans

/-- All its rows. -/
def pagedRows (first second : Option Str) : List ViewRow :=
  queryRows allHold (pagedDb first second) rootR .always [] true

/-- Dates that differ are never split. -/
theorem pages_once_dated :
    QueryPagesOnce allHold byDate
      (pagedDb (some "2024-01-01 22:00:00".toList) (some "2024-01-02 22:00:00".toList)) rootR
      (.obj []) .null 1 true
      (pagedRows (some "2024-01-01 22:00:00".toList) (some "2024-01-02 22:00:00".toList)) := by
  have hplaces : ∀ x ∈ pagedRows (some "2024-01-01 22:00:00".toList)
        (some "2024-01-02 22:00:00".toList),
      upTo (byDate.Le newestFirst) (pagedRows (some "2024-01-01 22:00:00".toList)
          (some "2024-01-02 22:00:00".toList)) x =
        before (byDate.Le newestFirst) (pagedRows (some "2024-01-01 22:00:00".toList)
          (some "2024-01-02 22:00:00".toList)) x + 1 := by decide
  refine (pages_once_iff rfl rfl rfl 1 true {}).1.mpr fun x hx i hcut => ?_
  have hhigh : i * 1 < upTo (byDate.Le newestFirst) (pagedRows (some "2024-01-01 22:00:00".toList)
      (some "2024-01-02 22:00:00".toList)) x := hcut.2
  rw [hplaces x hx] at hhigh
  exact absurd (Nat.lt_succ_iff.mp hhigh) (not_le_of_gt hcut.1)

/-- Two undated frames, read one at a time, need not both be listed. -/
theorem undated_pages_repeat :
    ¬ QueryPagesOnce allHold byDate (pagedDb none none) rootR (.obj []) .null 1 true
      (pagedRows none none) ∧
    ¬ BrowsePagesOnce allHold byDate (pagedDb none none) rootR
      { includeMissing := "1".toList, limit := some "1".toList } := by
  have hne : pagedRows none none ≠ [] := by decide
  have hplaces : ∀ x ∈ pagedRows none none,
      before (byDate.Le newestFirst) (pagedRows none none) x = 0 ∧
        upTo (byDate.Le newestFirst) (pagedRows none none) x = 2 := by decide
  obtain ⟨x, hx⟩ := List.exists_mem_of_ne_nil _ hne
  have htie : ¬ NoTieAcross (byDate.Le newestFirst) (pagedRows none none) 1 := by
    intro hno
    refine hno x hx 1 ⟨?_, ?_⟩
    · rw [(hplaces x hx).1]
      exact Nat.one_pos
    · rw [(hplaces x hx).2]
      exact Nat.one_lt_two
  constructor
  · intro h
    exact htie ((queryPagesOnce_iff rfl rfl rfl).mp h)
  · intro h
    exact htie (browsePagesOnce_iff.mp h).2

end Values

end StarBase.Query
