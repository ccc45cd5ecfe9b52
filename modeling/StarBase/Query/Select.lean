import StarBase.Action
import StarBase.Index.FrameStore
import StarBase.Query.FilterFields

/-!
# Selecting frames by a filter

The same filter reaches the database on two ways: `POST /query` lists the frames it selects, and an
action resolves it to the frames it acts on.

* `vFrames` — the rows of the view `v_frames`;
* `postQuery` — the listing, which hides the frames of missing files by default;
* `resolveByFilter`, `resolveByIds` — the frames of an action;
* `actsOnShown_iff` — **PROVED**: an action acts on exactly the frames shown if and only if the
  filter names `file_status` or selects no missing frame.

A listing is the frames it lists, without the columns of the answer.
-/

namespace StarBase.Query

open Relational Extract StarBase.Action

/-- The order the server returns rows in, chosen by it where `ORDER BY` leaves a choice. -/
structure ServerOrder (α : Type) where
  arrange : List α → List α
  perm : ∀ l, (arrange l).Perm l

/-! ### The view -/

/-- A row of `v_frames`: a frame with its file and its root. -/
structure ViewRow where
  frame : FrameRow
  file : FileRow
  root : RootRow
  deriving DecidableEq

section View

variable [Host]

/-- The row of a frame; its file and its root are found by their primary keys. -/
def viewRow (db : IndexDb) (roots : List RootRow) (fr : FrameRow) : Option ViewRow :=
  (db.files.rows.find? fun f => f.id = fr.fileId).bind fun f =>
    (roots.find? fun r => r.id = f.rootId).map fun r => ⟨fr, f, r⟩

def vFrames (db : IndexDb) (roots : List RootRow) : List ViewRow :=
  db.frames.rows.filterMap (viewRow db roots)

theorem viewRow_frame {db : IndexDb} {roots : List RootRow} {fr : FrameRow} {v : ViewRow}
    (h : viewRow db roots fr = some v) : v.frame = fr := by
  unfold viewRow at h
  obtain ⟨f, -, h⟩ := Option.bind_eq_some_iff.mp h
  obtain ⟨r, -, rfl⟩ := Option.map_eq_some_iff.mp h
  rfl

/-- The view has one row for a frame. -/
theorem vFrames_eq_of_id {db : IndexDb} {roots : List RootRow} {v v' : ViewRow}
    (hv : v ∈ vFrames db roots) (hv' : v' ∈ vFrames db roots) (h : v.frame.id = v'.frame.id) :
    v = v' := by
  obtain ⟨fr, hfr, hrow⟩ := List.mem_filterMap.mp hv
  obtain ⟨fr', hfr', hrow'⟩ := List.mem_filterMap.mp hv'
  have hsame : fr = fr' := by
    refine db.frames.eq_of_id hfr hfr' ?_
    rw [← viewRow_frame hrow, ← viewRow_frame hrow']
    exact h
  rw [hsame, hrow'] at hrow
  exact (Option.some.inj hrow).symm

end View

/-! ### The listing -/

/-- The truth of the leaves on the rows of the view, in a state of the database. -/
abbrev Truth := Leaf → ViewRow → Option Bool

/-- `WHERE cond`. -/
def selects (truth : Truth) (cond : Cond) (v : ViewRow) : Bool :=
  cond.eval (fun l => truth l v) = some true

/-- `WHERE (cond) AND file_status <> 'missing'`, if missing files are hidden. -/
def shows (truth : Truth) (cond : Cond) (hideMissing : Bool) (v : ViewRow) : Bool :=
  selects truth cond v && (!hideMissing || v.file.status ≠ .missing)

/-- `get<long>()`; an unsigned number from 2^63 on, which wraps, is left out. -/
def getLong (j : Json) : Compile Int :=
  match j with
  | .int i => .ok i
  | .float neg num den => .ok (Json.longOfFloat neg num den)
  | _ => .error (.other (Json.typeError "number".toList j))

/-- `value(key, default)` for an integer. -/
def valueLong (body : Json) (key : Str) (default : Int) : Compile Int := do
  let v ← liftJson (body.value (fun j => .ok (some j)) key none)
  match v with
  | some j => getLong j
  | none => pure default

/-- What `POST /query` answers. -/
structure QueryPage where
  total : ℕ
  missingHidden : ℕ
  limit : ℕ
  offset : ℕ
  condition : Cond
  hideMissing : Bool
  queryFields : List Str
  frames : List ViewRow

section Routes

variable [Host] (truth : Truth) (order : List SortKey → ServerOrder ViewRow)

/-- `POST /query`.  Soft-deleted files are hidden unless the caller opts in or the filter names
`file_status`. -/
def postQuery (db : IndexDb) (roots : List RootRow) (body : Json) : Compile QueryPage := do
  let filter ← liftJson (body.value .ok "filter".toList .null)
  let cond ← compileFilter filter
  let sortSpec ← liftJson (body.value .ok "sort".toList .null)
  let sort ← compileSort sortSpec
  let limitArg ← valueLong body "limit".toList 50
  let limit := (max 1 (min 500 limitArg)).toNat
  let offsetArg ← valueLong body "offset".toList 0
  let offset := (max 0 offsetArg).toNat
  let named ← liftJson (filterFields filter)
  let includeMissing ← liftJson (body.valueBool "include_missing".toList false)
  let hideMissing := !includeMissing && !named.contains "file_status".toList
  let rows := vFrames db roots
  let shown := rows.filter (shows truth cond hideMissing)
  let hidden := rows.filter fun v => selects truth cond v && v.file.status = .missing
  pure
    { total := shown.length
      missingHidden := if hideMissing then hidden.length else 0
      limit := limit
      offset := offset
      condition := cond
      hideMissing := hideMissing
      queryFields := named
      frames := (((order sort).arrange shown).drop offset).take limit }

/-! ### The frames of an action -/

/-- The text of a filter: empty, a document, or no JSON at all. -/
inductive FilterText
  | empty
  | json (ast : Json)
  | malformed (what : Str)

def imageTypeText : ImageType → Str
  | .light => "light".toList
  | .dark => "dark".toList
  | .flat => "flat".toList
  | .bias => "bias".toList
  | .darkflat => "darkflat".toList
  | .master => "master".toList
  | .unknown => "unknown".toList

/-- One frame as actions see it. -/
def ViewRow.toRef (v : ViewRow) : FrameRef where
  frameId := v.frame.id
  fileId := v.file.id
  rootId := v.root.id
  absPath := v.root.path ++ '/' :: v.file.relPath
  relPath := v.file.relPath
  filename := v.file.filename
  imageType := imageTypeText v.frame.cols.imageType

def resolveByIds (db : IndexDb) (roots : List RootRow) (ids : List ℕ) : List FrameRef :=
  if ids = [] then []
  else ((vFrames db roots).filter fun v => ids.contains v.frame.id).map ViewRow.toRef

/-- The frames of a filter, newest first, at most `limit`. -/
def resolveByFilter (db : IndexDb) (roots : List RootRow) (text : FilterText) (limit : ℕ) :
    Compile (List FrameRef) := do
  let ast ← match text with
    | .empty => .ok (.obj [])
    | .json ast => .ok ast
    | .malformed what => .error (.other (.json what))
  let cond ← compileFilter ast
  let rows := (vFrames db roots).filter (selects truth cond)
  let ids := (((order [⟨"date_obs_utc".toList, true⟩]).arrange rows).take limit).map
    fun v => v.frame.id
  pure (resolveByIds db roots ids)

/-! ### What the two ways select -/

/-- The text is empty, `null` or `{}`. -/
def FilterText.isEmpty : FilterText → Bool
  | .empty => true
  | .json ast => isEmptyAst ast
  | .malformed _ => false

variable {truth order} {db : IndexDb} {roots : List RootRow}

theorem mem_resolveByIds {ids : List ℕ} {i : ℕ} :
    i ∈ (resolveByIds db roots ids).map FrameRef.frameId ↔
      i ∈ ids ∧ ∃ v ∈ vFrames db roots, v.frame.id = i := by
  unfold resolveByIds
  split
  · next h => simp [h]
  · rw [List.map_map, List.mem_map]
    constructor
    · intro h
      obtain ⟨v, hv, rfl⟩ := h
      obtain ⟨hv, hid⟩ := List.mem_filter.mp hv
      exact ⟨List.contains_iff_mem.mp hid, v, hv, rfl⟩
    · intro h
      obtain ⟨hi, v, hv, rfl⟩ := h
      exact ⟨v, List.mem_filter.mpr ⟨hv, by simpa using hi⟩, rfl⟩

/-- The frames an action resolves, while its limit does not bind. -/
theorem mem_resolveByFilter (order : List SortKey → ServerOrder ViewRow) {text : FilterText} {ast : Json} {cond : Cond} {limit : ℕ}
    (htext : text = .json ast ∨ text = .empty ∧ ast = .obj [])
    (hc : compileFilter ast = .ok cond)
    (hlimit : ((vFrames db roots).filter (selects truth cond)).length ≤ limit) :
    ∃ refs, resolveByFilter truth order db roots text limit = .ok refs ∧
      ∀ i, i ∈ refs.map FrameRef.frameId ↔
        ∃ v ∈ vFrames db roots, selects truth cond v = true ∧ v.frame.id = i := by
  let rows := (vFrames db roots).filter (selects truth cond)
  let sorted := (order [⟨"date_obs_utc".toList, true⟩]).arrange rows
  have hperm : sorted.Perm rows := (order _).perm rows
  refine ⟨resolveByIds db roots ((sorted.take limit).map fun v => v.frame.id), ?_, fun i => ?_⟩
  · unfold resolveByFilter
    rcases htext with rfl | ⟨rfl, rfl⟩
    · exact compile_bind_ok_iff.mpr ⟨ast, rfl, compile_bind_ok_iff.mpr ⟨cond, hc, rfl⟩⟩
    · exact compile_bind_ok_iff.mpr ⟨.obj [], rfl, compile_bind_ok_iff.mpr ⟨cond, hc, rfl⟩⟩
  · rw [mem_resolveByIds, List.take_of_length_le (by rw [hperm.length_eq]; exact hlimit)]
    constructor
    · intro h
      obtain ⟨v, hv, rfl⟩ := List.mem_map.mp h.1
      obtain ⟨hv, hs⟩ := List.mem_filter.mp (hperm.mem_iff.mp hv)
      exact ⟨v, hv, hs, rfl⟩
    · intro h
      obtain ⟨v, hv, hs, rfl⟩ := h
      refine ⟨List.mem_map.mpr ⟨v, hperm.mem_iff.mpr (List.mem_filter.mpr ⟨hv, hs⟩), rfl⟩, v, hv, rfl⟩

/-- The frames `POST /query` lists for a body with a filter alone, while its limit does not bind. -/
theorem mem_postQuery (order : List SortKey → ServerOrder ViewRow) {ast : Json} {cond : Cond} {names : List Str}
    (hc : compileFilter ast = .ok cond) (hn : filterFields ast = .ok names)
    (hlimit : ((vFrames db roots).filter
      (shows truth cond (!names.contains "file_status".toList))).length ≤ 50) :
    ∃ page, postQuery truth order db roots (.obj [("filter".toList, ast)]) = .ok page ∧
      ∀ i, i ∈ (page.frames.map fun v => v.frame.id) ↔
        ∃ v ∈ vFrames db roots,
          shows truth cond (!names.contains "file_status".toList) v = true ∧ v.frame.id = i := by
  let hide := !names.contains "file_status".toList
  let rows := vFrames db roots
  let shown := rows.filter (shows truth cond hide)
  let sorted := (order [⟨"date_obs_utc".toList, true⟩]).arrange shown
  have hperm : sorted.Perm shown := (order _).perm shown
  refine ⟨⟨shown.length,
    if hide then (rows.filter fun v => selects truth cond v && v.file.status = .missing).length
      else 0, 50, 0, cond, hide, names, (sorted.drop 0).take 50⟩, ?_, fun i => ?_⟩
  · unfold postQuery
    refine compile_bind_ok_iff.mpr ⟨ast, rfl, compile_bind_ok_iff.mpr ⟨cond, hc, ?_⟩⟩
    refine compile_bind_ok_iff.mpr ⟨.null, rfl, compile_bind_ok_iff.mpr ⟨_, rfl, ?_⟩⟩
    refine compile_bind_ok_iff.mpr ⟨50, rfl, compile_bind_ok_iff.mpr ⟨0, rfl, ?_⟩⟩
    refine compile_bind_ok_iff.mpr ⟨names, by rw [hn]; rfl, ?_⟩
    exact compile_bind_ok_iff.mpr ⟨false, rfl, rfl⟩
  · dsimp only
    rw [List.drop_zero, List.take_of_length_le (by rw [hperm.length_eq]; exact hlimit), List.mem_map]
    constructor
    · intro h
      obtain ⟨v, hv, rfl⟩ := h
      obtain ⟨hv, hs⟩ := List.mem_filter.mp (hperm.mem_iff.mp hv)
      exact ⟨v, hv, hs, rfl⟩
    · intro h
      obtain ⟨v, hv, hs, rfl⟩ := h
      exact ⟨v, hperm.mem_iff.mpr (List.mem_filter.mpr ⟨hv, hs⟩), rfl⟩

variable (truth order db roots)

/-- An empty filter resolves to no frame; one that compiles, to the frames that `POST /query`
lists for it. -/
def ActsOnShown (text : FilterText) (limit : ℕ) : Prop :=
  if text.isEmpty then resolveByFilter truth order db roots text limit = .ok []
  else ∀ ast cond, text = .json ast → compileFilter ast = .ok cond →
    ∃ refs page, resolveByFilter truth order db roots text limit = .ok refs ∧
      postQuery truth order db roots (.obj [("filter".toList, ast)]) = .ok page ∧
      ∀ i, i ∈ refs.map FrameRef.frameId ↔ i ∈ page.frames.map fun v => v.frame.id

/-- The filter is empty and there is no frame; or it names `file_status` or selects no frame of a
missing file. -/
def ShowsAll (text : FilterText) : Prop :=
  if text.isEmpty then vFrames db roots = []
  else ∀ ast cond names, text = .json ast → compileFilter ast = .ok cond →
    filterFields ast = .ok names →
      "file_status".toList ∈ names ∨
        ∀ v ∈ vFrames db roots, selects truth cond v = true → v.file.status ≠ .missing

/-- Neither the limit of the action nor that of the listing binds. -/
structure LimitsFree (text : FilterText) (limit : ℕ) : Prop where
  action : ∀ ast cond, (text = .json ast ∨ text = .empty ∧ ast = .obj []) →
    compileFilter ast = .ok cond →
      ((vFrames db roots).filter (selects truth cond)).length ≤ limit
  listing : ∀ ast cond names, text = .json ast → compileFilter ast = .ok cond →
    filterFields ast = .ok names →
      ((vFrames db roots).filter
        (shows truth cond (!names.contains "file_status".toList))).length ≤ 50

variable {truth order db roots}

/-- An empty filter compiles to `1=1`, which selects every frame. -/
theorem resolve_empty_iff {text : FilterText} {limit : ℕ} (hempty : text.isEmpty = true)
    (hlimit : LimitsFree truth db roots text limit) :
    resolveByFilter truth order db roots text limit = .ok [] ↔ vFrames db roots = [] := by
  have htext : ∃ ast, (text = .json ast ∨ text = .empty ∧ ast = .obj []) ∧
      compileFilter ast = .ok .always := by
    cases text with
    | empty => exact ⟨.obj [], Or.inr ⟨rfl, rfl⟩, rfl⟩
    | json ast => exact ⟨ast, Or.inl rfl, if_pos hempty⟩
    | malformed what => cases hempty
  obtain ⟨ast, hast, hc⟩ := htext
  obtain ⟨refs, hrefs, hmem⟩ :=
    mem_resolveByFilter order hast hc (hlimit.action ast _ hast hc)
  rw [hrefs]
  constructor
  · intro h
    rw [List.eq_nil_iff_forall_not_mem]
    intro v hv
    have hin := (hmem v.frame.id).mpr ⟨v, hv, rfl, rfl⟩
    rw [Except.ok.inj h] at hin
    cases hin
  · intro h
    have hnone : refs = [] := by
      cases refs with
      | nil => rfl
      | cons r rs =>
        obtain ⟨v, hv, -⟩ := (hmem r.frameId).mp (by simp)
        rw [h] at hv
        cases hv
    rw [hnone]

/-- A filter selects the frames it shows exactly if it hides none. -/
theorem selects_shows_iff {cond : Cond} {hide : Bool} :
    (∀ i, (∃ v ∈ vFrames db roots, selects truth cond v = true ∧ v.frame.id = i) ↔
        ∃ v ∈ vFrames db roots, shows truth cond hide v = true ∧ v.frame.id = i) ↔
      hide = false ∨ ∀ v ∈ vFrames db roots, selects truth cond v = true →
        v.file.status ≠ .missing := by
  constructor
  · intro h
    cases hide with
    | false => exact Or.inl rfl
    | true =>
      refine Or.inr fun v hv hs => ?_
      obtain ⟨v', hv', hs', hid⟩ := (h v.frame.id).mp ⟨v, hv, hs, rfl⟩
      rw [vFrames_eq_of_id hv' hv hid] at hs'
      simpa [shows, hs] using hs'
  · intro h i
    constructor
    · intro hsel
      obtain ⟨v, hv, hs, hid⟩ := hsel
      refine ⟨v, hv, ?_, hid⟩
      rcases h with rfl | h
      · simp [shows, hs]
      · simp [shows, hs, h v hv hs]
    · intro hsh
      obtain ⟨v, hv, hs, hid⟩ := hsh
      exact ⟨v, hv, (Bool.and_eq_true_iff.mp hs).1, hid⟩

/-- **Acting on what is shown, exactly.**  While neither limit binds, an action acts on the frames
the query shows if and only if the filter hides none of the frames it selects. -/
theorem actsOnShown_iff (truth : Truth) (order : List SortKey → ServerOrder ViewRow) (db : IndexDb)
    (roots : List RootRow) (text : FilterText) (limit : ℕ)
    (hlimit : LimitsFree truth db roots text limit) :
    ActsOnShown truth order db roots text limit ↔ ShowsAll truth db roots text := by
  unfold ActsOnShown ShowsAll
  cases hempty : text.isEmpty with
  | true => exact resolve_empty_iff hempty hlimit
  | false =>
    simp only [Bool.false_eq_true, if_false]
    constructor
    · intro h ast cond names htext hc hn
      obtain ⟨refs, page, hrefs, hpage, hsame⟩ := h ast cond htext hc
      obtain ⟨refs', hrefs', hmem⟩ := mem_resolveByFilter order (Or.inl htext) hc
        (hlimit.action ast cond (Or.inl htext) hc)
      obtain ⟨page', hpage', hshown⟩ := mem_postQuery order hc hn
        (hlimit.listing ast cond names htext hc hn)
      obtain rfl := Except.ok.inj (hrefs.symm.trans hrefs')
      obtain rfl := Except.ok.inj (hpage.symm.trans hpage')
      have hiff := selects_shows_iff.mp fun i => (hmem i).symm.trans ((hsame i).trans (hshown i))
      simpa using hiff
    · intro h ast cond htext hc
      obtain ⟨names, hn⟩ := filterFields_ok hc
      obtain ⟨refs, hrefs, hmem⟩ := mem_resolveByFilter order (Or.inl htext) hc
        (hlimit.action ast cond (Or.inl htext) hc)
      obtain ⟨page, hpage, hshown⟩ := mem_postQuery order hc hn
        (hlimit.listing ast cond names htext hc hn)
      have hiff := selects_shows_iff.mpr
        (show (!names.contains "file_status".toList) = false ∨ _ by
          simpa using h ast cond names htext hc hn)
      exact ⟨refs, page, hrefs, hpage, fun i => (hmem i).trans ((hiff i).trans (hshown i).symm)⟩

end Routes

/-! ### A frame whose file is missing -/

section Hidden

attribute [local instance] plainHost

def bareHdu : Hdu := ⟨0, true, 16, 2, 1, 1, []⟩

/-- The two files of the root `/r` with one frame each; the second file is missing. -/
def oneHidden : IndexDb where
  files := twoNights.files.modify (fun q => q.id = 2) missingRow
  frames := ((Table.empty frameKeying).upsert _ (newFrame 1 bareHdu {} {})
    (storedFrame bareHdu {} {})).upsert _ (newFrame 2 bareHdu {} {}) (storedFrame bareHdu {} {})
  keywords := []
  cameras := Table.empty nameKeying
  filters := Table.empty nameKeying
  operator := {}
  frameTags := []
  collectionFrames := []
  frames_fk := by decide

def rootR : List RootRow := [⟨1, "/r".toList, true⟩]

/-- Every leaf holds of every row. -/
def allHold : Truth := fun _ _ => some true

def asStored (_ : List SortKey) : ServerOrder ViewRow := ⟨id, fun _ => List.Perm.refl _⟩

/-- `field` is not `NULL`. -/
def notNull (field : Str) : Json :=
  .obj [("op".toList, .str "notnull".toList), ("field".toList, .str field)]

theorem oneHidden_limits (text : FilterText) : LimitsFree allHold oneHidden rootR text 100000 := by
  have htwo : (vFrames oneHidden rootR).length = 2 := by decide
  constructor
  · intro _ cond _ _
    have := List.length_filter_le (selects allHold cond) (vFrames oneHidden rootR)
    omega
  · intro _ cond names _ _ _
    have := List.length_filter_le (shows allHold cond (!names.contains "file_status".toList))
      (vFrames oneHidden rootR)
    omega

/-- A filter on `file_status` shows both frames and acts on both. -/
theorem actsOnShown_status : ActsOnShown allHold asStored oneHidden rootR
    (.json (notNull "file_status".toList)) 100000 := by
  refine (actsOnShown_iff allHold asStored oneHidden rootR _ 100000 (oneHidden_limits _)).mpr ?_
  intro ast cond names htext _ hn
  cases htext
  cases hn
  exact Or.inl (by decide)

/-- A filter on another field shows one frame and acts on both. -/
theorem acts_on_hidden_frame : ¬ ActsOnShown allHold asStored oneHidden rootR
    (.json (notNull "image_type".toList)) 100000 := by
  intro h
  obtain ⟨refs, page, hrefs, hpage, hsame⟩ := h _ _ rfl rfl
  cases hrefs
  cases hpage
  have hboth := hsame 2
  revert hboth
  decide

end Hidden

end StarBase.Query
