import Mathlib.Data.List.DropRight
import StarBase.Lib.Like
import StarBase.Names.Spelling
import StarBase.Query.Browse
import StarBase.Query.Pages
import StarBase.Query.RowTruth

/-!
# The query builder and Browse on objects

The visual query builder sends `object matches s` as a pattern; Browse sends the designations of
`s`.

* `rowClause`, `buildAST` — the filter that the rows of the builder make;
* `designations_pattern` — a pattern is no catalog name;
* `Collation`, `Collates` — how the server compares and matches texts;
* `browse_within_builder_iff` — **PROVED**: the builder's filter selects all that Browse finds
  exactly if `s` is empty or occurs in each of its designations.
-/

namespace StarBase.Query

open Relational Extract

/-! ### The rows of the builder -/

/-- A row as it is typed. -/
structure BuilderRow where
  field : Str
  op : Str
  value : Str := []
  value2 : Str := []

/-- The cone as it is typed. -/
structure BuilderCone where
  ra : Str
  dec : Str
  radius : Str

def noValue (op : Str) : Bool := op = "isnull".toList || op = "notnull".toList

/-- The white space of `String.prototype.trim`. -/
def isScriptSpace (c : Char) : Bool :=
  [0x09, 0x0a, 0x0b, 0x0c, 0x0d, 0x20, 0xa0, 0x1680, 0x2028, 0x2029, 0x202f, 0x205f, 0x3000,
    0xfeff].contains c.toNat || (0x2000 ≤ c.toNat && c.toNat ≤ 0x200a)

def scriptTrim (s : Str) : Str := (s.dropWhile isScriptSpace).rdropWhile isScriptSpace

/-- "matches" is a contains-search unless the user supplies their own wildcard. -/
def matchPattern (v : Str) : Str :=
  if !v.contains '%' && !v.contains '_' then '%' :: v ++ ['%'] else v

/-- The clause of a row; none for one that is not filled in. -/
def rowClause (c : BuilderRow) : Option Json :=
  if c.field = [] then none
  else if c.field = "tag".toList then
    if c.value = [] then none
    else some (.obj [("op".toList, .str (if c.op = "untagged".toList then "untagged".toList
      else "tagged".toList)), ("value".toList, .str c.value)])
  else if c.field = "collection".toList then
    if c.value = [] then none
    else some (.obj [("op".toList, .str "in_collection".toList), ("value".toList, .str c.value)])
  else if noValue c.op then
    some (.obj [("field".toList, .str c.field), ("op".toList, .str c.op)])
  else if c.op = "between".toList then
    if c.value = [] ∨ c.value2 = [] then none
    else some (comparison c.field "between".toList (.arr [.str c.value, .str c.value2]))
  else if c.op = "in".toList then
    match ((c.value.splitOn ',').map scriptTrim).filter (· ≠ []) with
    | [] => none
    | list => some (comparison c.field "in".toList (.arr (list.map .str)))
  else if c.op = "like".toList then
    if c.value = [] then none
    else some (comparison c.field "like".toList (.str (matchPattern c.value)))
  else if c.value = [] then none
  else some (comparison c.field c.op (.str c.value))

/-- The clause of the cone; `number` is the script's `Number`. -/
def coneClause (number : Str → Json) (cone : BuilderCone) : Option Json :=
  if cone.ra ≠ [] ∧ cone.dec ≠ [] ∧ cone.radius ≠ [] then
    some (.obj [("op".toList, .str "cone".toList), ("ra".toList, number cone.ra),
      ("dec".toList, number cone.dec), ("radius_deg".toList, number cone.radius)])
  else none

/-- The filter of the visual builder; `cone` is the cone search, if it is on. -/
def buildAST (number : Str → Json) (combiner : Str) (rows : List BuilderRow)
    (cone : Option BuilderCone) : Json :=
  match rows.filterMap rowClause ++ (cone.bind (coneClause number)).toList with
  | [] => .obj []
  | [clause] => clause
  | clauses => .obj [("op".toList, .str combiner), ("clauses".toList, .arr clauses)]

/-- What the builder sends for the one row "object matches s". -/
def objectMatches (number : Str → Json) (combiner s : Str) : Json :=
  buildAST number combiner [⟨"object".toList, "like".toList, s, []⟩] none

theorem matchPattern_plain {s : Str} (h : ∀ c ∈ s, c ≠ '%' ∧ c ≠ '_') :
    matchPattern s = '%' :: s ++ ['%'] := by
  refine if_pos ?_
  have hmany : s.contains '%' = false := by
    simpa using fun hmem => (h _ hmem).1 rfl
  have hone : s.contains '_' = false := by
    simpa using fun hmem => (h _ hmem).2 rfl
  rw [hmany, hone]
  rfl

theorem objectMatches_eq {number : Str → Json} {combiner s : Str} (hne : s ≠ [])
    (h : ∀ c ∈ s, c ≠ '%' ∧ c ≠ '_') : objectMatches number combiner s =
      comparison "object".toList "like".toList (.str ('%' :: s ++ ['%'])) := by
  have hclause : rowClause ⟨"object".toList, "like".toList, s, []⟩ =
      some (comparison "object".toList "like".toList (.str (matchPattern s))) := if_neg hne
  unfold objectMatches buildAST
  rw [List.filterMap_cons, hclause, matchPattern_plain h]
  rfl

/-! ### A pattern is no catalog name -/

section Spaced

open Names

/-- Every run of white space is one blank, at the ends too. -/
def spacedFrom (sp : Bool) : Str → Str
  | [] => if sp then [' '] else []
  | c :: cs =>
    if isSpaceChar c then spacedFrom true cs
    else if sp then ' ' :: c :: spacedFrom false cs
    else c :: spacedFrom false cs

def spaced (s : Str) : Str := spacedFrom false s

theorem tidyFrom_percent (sp : Bool) (s : Str) :
    tidyFrom true sp (s ++ ['%']) = spacedFrom sp s ++ ['%'] := by
  induction s generalizing sp with
  | nil =>
    cases sp with
    | true => rfl
    | false => rfl
  | cons c s ih =>
    show (if isSpaceChar c then tidyFrom true true (s ++ ['%'])
      else if sp then ' ' :: c :: tidyFrom true false (s ++ ['%'])
      else c :: tidyFrom true false (s ++ ['%'])) = (if isSpaceChar c then spacedFrom true s
        else if sp then ' ' :: c :: spacedFrom false s else c :: spacedFrom false s) ++ ['%']
    rw [ih, ih]
    split
    · rfl
    · split
      · rfl
      · rfl

theorem tidy_pattern (s : Str) : tidy ('%' :: s ++ ['%']) = '%' :: spaced s ++ ['%'] := by
  have hfirst : tidy ('%' :: s ++ ['%']) = '%' :: tidyFrom true false (s ++ ['%']) :=
    tidyFrom_first (by decide) _
  rw [hfirst, tidyFrom_percent]
  rfl

theorem mem_spacedFrom {sp : Bool} {s : Str} {c : Char} (h : c ∈ spacedFrom sp s) :
    c = ' ' ∨ c ∈ s := by
  induction s generalizing sp with
  | nil =>
    cases sp with
    | true => exact Or.inl (List.mem_singleton.mp h)
    | false => cases h
  | cons d s ih =>
    unfold spacedFrom at h
    have hlater : ∀ {b}, c ∈ spacedFrom b s → c = ' ' ∨ c ∈ d :: s := fun hc =>
      (ih hc).imp_right (List.mem_cons_of_mem d)
    split at h
    · exact hlater h
    · have hhere : c ∈ d :: spacedFrom false s → c = ' ' ∨ c ∈ d :: s := by
        intro hc
        rcases List.mem_cons.mp hc with rfl | hc
        · exact Or.inr List.mem_cons_self
        · exact hlater hc
      split at h
      · rcases List.mem_cons.mp h with rfl | hc
        · exact Or.inl rfl
        · exact hhere hc
      · exact hhere h

/-- No alias, and no placeholder, begins with a wildcard. -/
theorem designations_pattern (s : Str) :
    designations ('%' :: s ++ ['%']) = ['%' :: spaced s ++ ['%']] := by
  have hlow : lower (tidy ('%' :: s ++ ['%'])) = '%' :: lower (spaced s ++ ['%']) := by
    rw [tidy_pattern]
    rfl
  have hplace : isPlaceholder (lower (tidy ('%' :: s ++ ['%']))) = false := by
    rw [hlow]
    have hnone : kPlaceholders.all (fun p => decide (p.head? ≠ some '%')) = true := by
      decide
    by_contra hp
    have hmem : '%' :: lower (spaced s ++ ['%']) ∈ kPlaceholders := by
      simpa [isPlaceholder] using hp
    exact absurd rfl (of_decide_eq_true (List.all_eq_true.mp hnone _ hmem))
  have halias : (spellings.findSome? fun x =>
      applyAlias (tidy ('%' :: s ++ ['%'])) x.1 x.2) = none := by
    rw [List.findSome?_eq_none_iff]
    intro x hx
    refine applyAlias_of_not_prefix ?_
    rw [hlow]
    have hword : spellings.all (fun x => decide (x.2.head? ≠ some '%')) = true := by
      decide
    have hhead : x.2.head? ≠ some '%' := of_decide_eq_true (List.all_eq_true.mp hword x hx)
    intro hprefix
    cases hname : x.2 with
    | nil => exact (spellings_words x hx).1 hname
    | cons c cs =>
      rw [hname, List.cons_prefix_cons] at hprefix
      rw [hname, hprefix.1] at hhead
      exact hhead rfl
  have hcanon : canonicalize ('%' :: s ++ ['%']) =
      ⟨'%' :: spaced s ++ ['%'], [], false, false⟩ := by
    rw [canonicalize_search, hplace, halias, tidy_pattern]
    rfl
  unfold designations
  rw [hcanon]
  rfl

end Spaced

/-! ### Texts on the server -/

/-- A collation that weighs the characters of a text one by one. -/
structure Collation where
  weight : Char → ℕ

namespace Collation

variable (C : Collation)

def weights (s : Str) : List ℕ := s.map C.weight

/-- A text without the blanks at its end, which do not count in a comparison. -/
def bare (s : Str) : Str := s.rdropWhile fun c => C.weight c = C.weight ' '

/-- `x LIKE pattern`, character by character. -/
def like (x pattern : Str) : Bool :=
  Like.fits ((Like.items pattern).map (Like.Item.map C.weight)) (C.weights x)

theorem bare_bare (s : Str) : C.bare (C.bare s) = C.bare s := List.rdropWhile_idempotent _ _

/-- A text weighs what another that equals it does, and more at its end. -/
theorem weights_of_equal {x d : Str} (h : C.weights (C.bare x) = C.weights (C.bare d)) :
    C.weights (C.bare d) <+: C.weights x := by
  rw [← h]
  exact (List.rdropWhile_prefix _ x).map C.weight

end Collation

/-- A server that compares texts under the collation. -/
structure Collates (C : Collation) (srv : CellOrder Str) : Prop where
  equal : ∀ x s, srv.compare x (.text s) = .eq ↔ C.weights (C.bare x) = C.weights (C.bare s)
  like : ∀ x p, srv.like x (.text p) = C.like x p

/-! ### The two searches on a row -/

/-- The cells of a row of the view; `rest` has those that no object search compares. -/
def frameCells (rest : ViewRow → Cells Str) (v : ViewRow) : Cells Str := fun field =>
  if field = "object_canonical".toList then v.frame.cols.objectCanonical else rest v field

def rowTruth (srv : CellOrder Str) (other : Leaf → ViewRow → Option Bool)
    (rest : ViewRow → Cells Str) : Truth :=
  fun l v => leafTruth srv (fun l => other l v) (frameCells rest v) l

/-- The parameters of an object search in Browse. -/
def objectSearch (s : Str) (includeMissing : Bool) : BrowseRequest :=
  { object := some s, includeMissing := if includeMissing then "1".toList else [] }

section Searches

variable {C : Collation} {srv : CellOrder Str} {other : Leaf → ViewRow → Option Bool}
  {rest : ViewRow → Cells Str} {v : ViewRow} {s : Str}

/-- Browse compares the canonical name with the designations. -/
theorem selects_objectSearch (hsrv : Collates C srv) {includeMissing : Bool} :
    selects (rowTruth srv other rest) (browseCond (objectSearch s includeMissing)) v = true ↔
      ∃ x, v.frame.cols.objectCanonical = some x ∧
        ∃ d ∈ Names.designations s, C.weights (C.bare x) = C.weights (C.bare d) := by
  have heval : (browseCond (objectSearch s includeMissing)).eval
      (fun l => rowTruth srv other rest l v) = and3 (v.frame.cols.objectCanonical.map fun x =>
        ((Names.designations s).map .text).any fun d => srv.compare x d = .eq) (some true) := rfl
  have hand : ∀ b : Option Bool, and3 b (some true) = some true ↔ b = some true := by
    rintro (_ | _ | _) <;> decide
  unfold selects
  rw [heval, decide_eq_true_iff, hand, Option.map_eq_some_iff]
  refine exists_congr fun x => and_congr_right fun _ => ?_
  rw [List.any_map, List.any_eq_true]
  refine exists_congr fun d => and_congr_right fun _ => ?_
  exact decide_eq_true_iff.trans (hsrv.equal x d)

/-- The builder matches the canonical name with the pattern. -/
theorem selects_pattern (hsrv : Collates C srv) (hs : ∀ c ∈ s, c ≠ '%' ∧ c ≠ '_') :
    selects (rowTruth srv other rest)
        (.leaf (.object true (Names.designations ('%' :: s ++ ['%'])))) v = true ↔
      ∃ x, v.frame.cols.objectCanonical = some x ∧
        C.weights (Like.literal (spaced s)) <:+: C.weights x := by
  have hplain : ∀ c ∈ spaced s, c ≠ '%' ∧ c ≠ '_' := by
    intro c hc
    rcases mem_spacedFrom hc with rfl | hc
    · decide
    · exact hs c hc
  have heval : (Cond.leaf (.object true (Names.designations ('%' :: s ++ ['%'])))).eval
      (fun l => rowTruth srv other rest l v) = v.frame.cols.objectCanonical.map fun x =>
        (Names.designations ('%' :: s ++ ['%'])).any fun d =>
          srv.like x (.text ('%' :: d ++ ['%'])) := rfl
  have hlike : ∀ x, srv.like x (.text ('%' :: ('%' :: spaced s ++ ['%']) ++ ['%'])) = true ↔
      C.weights (Like.literal (spaced s)) <:+: C.weights x := by
    intro x
    have hpattern : '%' :: ('%' :: spaced s ++ ['%']) ++ ['%'] =
        '%' :: '%' :: spaced s ++ ['%', '%'] := by simp
    rw [hsrv.like, hpattern]
    exact Like.fits_anywhere_iff C.weight hplain
  unfold selects
  rw [heval, designations_pattern, decide_eq_true_iff, Option.map_eq_some_iff]
  refine exists_congr fun x => and_congr_right fun _ => ?_
  rw [List.any_cons, List.any_nil, Bool.or_false]
  exact hlike x

/-- The builder's filter compiles to a search for the pattern. -/
theorem compile_objectMatches (number : Str → Json) (combiner : Str) (hne : s ≠ [])
    (hs : ∀ c ∈ s, c ≠ '%' ∧ c ≠ '_') :
    compileFilter (objectMatches number combiner s) =
        .ok (.leaf (.object true (Names.designations ('%' :: s ++ ['%'])))) ∧
      filterFields (objectMatches number combiner s) = .ok ["object".toList] := by
  have hfield : fields.lookup "object".toList = some .str := rfl
  rw [objectMatches_eq hne hs]
  constructor
  · rw [compileFilter_comparison hfield (by decide)]
    rfl
  · rfl

end Searches

/-! ### Browse within the builder -/

section Within

variable [Host]

/-- Canonical names fit their column, a `VARCHAR(64)`. -/
def NamesFit (db : IndexDb) : Prop :=
  ∀ f ∈ db.frames.rows, ∀ name ∈ f.cols.objectCanonical, name.length ≤ 64

/-- The filter `ast` selects, in every database, every frame that Browse finds for `s`. -/
def BrowseWithin (truth : Truth) (ast : Json) (s : Str) : Prop :=
  ∃ cond named, compileFilter ast = .ok cond ∧ filterFields ast = .ok named ∧
    ∀ (db : IndexDb) (roots : List RootRow) (includeMissing : Bool), NamesFit db →
      ∀ v ∈ browseRows truth db roots (objectSearch s includeMissing),
        v ∈ queryRows truth db roots cond named includeMissing

/-- One file with one frame of the canonical name. -/
def oneFrame (name : Str) : IndexDb :=
  let file : FileRow := ⟨1, 1, "a".toList, "a".toList, "a".toList, none, .fits, .lights, none, none,
    none, .ok, none, 0, none, none⟩
  let frame : FrameRow := ⟨1, 1, 0, [], { objectCanonical := some name }, {}, none, none⟩
  { IndexDb.blank {} with
    files := ⟨[file], 2, by simp [file, fileKeying], by simp, by simp⟩
    frames := ⟨[frame], 2, by simp [frame, frameKeying], by simp, by simp⟩
    frames_fk := by simp [file, frame, Table.ids, fileKeying] }

theorem vFrames_oneFrame (name : Str) : ∃ v, vFrames (oneFrame name) [⟨1, "/r".toList, true⟩] = [v] ∧
    v.frame.cols.objectCanonical = some name ∧ v.file.status = .ok := ⟨_, rfl, rfl, rfl⟩

variable {C : Collation} {srv : CellOrder Str} {other : Leaf → ViewRow → Option Bool}
  {rest : ViewRow → Cells Str} {s : Str}

theorem mem_browseRows {truth : Truth} {db : IndexDb} {roots : List RootRow}
    {includeMissing : Bool} {v : ViewRow} :
    v ∈ browseRows truth db roots (objectSearch s includeMissing) ↔
      v ∈ vFrames db roots ∧ selects truth (browseCond (objectSearch s includeMissing)) v = true ∧
        (includeMissing = false → v.file.status ≠ .missing) := by
  unfold browseRows shows
  cases includeMissing <;> simp [objectSearch]

theorem mem_queryRows {truth : Truth} {db : IndexDb} {roots : List RootRow} {cond : Cond}
    {named : List Str} {includeMissing : Bool} {v : ViewRow}
    (hnamed : named.contains "file_status".toList = false) :
    v ∈ queryRows truth db roots cond named includeMissing ↔
      v ∈ vFrames db roots ∧ selects truth cond v = true ∧
        (includeMissing = false → v.file.status ≠ .missing) := by
  unfold queryRows shows
  rw [hnamed]
  cases includeMissing <;> simp

variable {number : Str → Json} {combiner : Str}

theorem within_nil : BrowseWithin (rowTruth srv other rest) (objectMatches number combiner []) [] := by
  refine ⟨.always, [], rfl, rfl, ?_⟩
  intro db roots includeMissing _ v hv
  obtain ⟨hrow, -, hstatus⟩ := mem_browseRows.mp hv
  exact (mem_queryRows rfl).mpr ⟨hrow, rfl, hstatus⟩

/-- A frame that is named by a designation is found by both. -/
theorem occurs_of_within (hsrv : Collates C srv) (hne : s ≠ []) (hs : ∀ c ∈ s, c ≠ '%' ∧ c ≠ '_')
    (h : BrowseWithin (rowTruth srv other rest) (objectMatches number combiner s) s) {d : Str}
    (hd : d ∈ Names.designations s) (hlen : (C.bare d).length ≤ 64) :
    C.weights (Like.literal (spaced s)) <:+: C.weights (C.bare d) := by
  obtain ⟨hcompile, hfields⟩ := compile_objectMatches number combiner hne hs
  obtain ⟨cond, named, hcond, hnamed, hwithin⟩ := h
  rw [hcompile] at hcond
  rw [hfields] at hnamed
  cases hcond
  cases hnamed
  obtain ⟨v, hrows, hname, -⟩ := vFrames_oneFrame (C.bare d)
  have hmem : v ∈ vFrames (oneFrame (C.bare d)) [⟨1, "/r".toList, true⟩] := by
    rw [hrows]
    exact List.mem_singleton_self v
  have hfit : NamesFit (oneFrame (C.bare d)) := by
    intro f hf name hfname
    cases List.mem_singleton.mp hf
    cases hfname
    exact hlen
  have hbrowse : v ∈ browseRows (rowTruth srv other rest) (oneFrame (C.bare d))
      [⟨1, "/r".toList, true⟩] (objectSearch s true) := by
    refine mem_browseRows.mpr ⟨hmem, (selects_objectSearch hsrv).mpr ?_, Bool.noConfusion⟩
    exact ⟨C.bare d, hname, d, hd, congrArg C.weights (C.bare_bare d)⟩
  obtain ⟨-, hsel, -⟩ := (mem_queryRows (by decide)).mp (hwithin _ _ true hfit v hbrowse)
  obtain ⟨x, hx, hinfix⟩ := (selects_pattern hsrv hs).mp hsel
  rw [hname] at hx
  cases hx
  exact hinfix

/-- What occurs in the designations is matched by the names that equal them. -/
theorem within_of_occurs (hsrv : Collates C srv) (hne : s ≠ []) (hs : ∀ c ∈ s, c ≠ '%' ∧ c ≠ '_')
    (hoccurs : ∀ d ∈ Names.designations s, (C.bare d).length ≤ 64 →
      C.weights (Like.literal (spaced s)) <:+: C.weights (C.bare d)) :
    BrowseWithin (rowTruth srv other rest) (objectMatches number combiner s) s := by
  obtain ⟨hcompile, hfields⟩ := compile_objectMatches number combiner hne hs
  refine ⟨_, _, hcompile, hfields, ?_⟩
  intro db roots includeMissing hfit v hv
  obtain ⟨hrow, hsel, hstatus⟩ := mem_browseRows.mp hv
  obtain ⟨x, hx, d, hd, hequal⟩ := (selects_objectSearch hsrv).mp hsel
  obtain ⟨fr, hfr, hview⟩ := List.mem_filterMap.mp hrow
  -- what equals a name of the column, less its blanks, is no longer than the column
  have hlen : (C.bare d).length ≤ 64 := by
    have hprefix := (C.weights_of_equal hequal).length_le
    have hname : x.length ≤ 64 := hfit fr hfr x (by rw [← viewRow_frame hview]; exact hx)
    simp only [Collation.weights, List.length_map] at hprefix
    omega
  refine (mem_queryRows (by decide)).mpr ⟨hrow, (selects_pattern hsrv hs).mpr ⟨x, hx, ?_⟩, hstatus⟩
  exact (hoccurs d hd hlen).trans (C.weights_of_equal hequal).isInfix

/-- **Browse within the builder, exactly.**  Whatever Browse finds for `s` the builder's filter
selects too, exactly if `s` is empty or occurs in every one of its designations that the column
can hold. -/
theorem browse_within_builder_iff (hsrv : Collates C srv) (hs : ∀ c ∈ s, c ≠ '%' ∧ c ≠ '_') :
    BrowseWithin (rowTruth srv other rest) (objectMatches number combiner s) s ↔
      s = [] ∨ ∀ d ∈ Names.designations s, (C.bare d).length ≤ 64 →
        C.weights (Like.literal (spaced s)) <:+: C.weights (C.bare d) := by
  by_cases hne : s = []
  · subst hne
    exact iff_of_true within_nil (Or.inl rfl)
  · rw [or_iff_right hne]
    exact ⟨fun h d hd hlen => occurs_of_within hsrv hne hs h hd hlen,
      within_of_occurs hsrv hne hs⟩

end Within

/-! ### A name of one catalog, and one of two -/

section Values

attribute [local instance] plainHost

/-- Letters compared without their case. -/
def foldCase : Collation := ⟨fun c => c.toLower.toNat⟩

def foldServer : CellOrder Str where
  compare x
    | .text s =>
      if foldCase.weights (foldCase.bare x) = foldCase.weights (foldCase.bare s) then .eq
      else if foldCase.weights x < foldCase.weights s then .lt else .gt
    | _ => .gt
  like x
    | .text p => foldCase.like x p
    | _ => false

theorem foldServer_collates : Collates foldCase foldServer where
  equal x s := by
    show (if foldCase.weights (foldCase.bare x) = foldCase.weights (foldCase.bare s) then
      Ordering.eq else _) = .eq ↔ _
    constructor
    · intro h
      by_contra hne
      rw [if_neg hne] at h
      split at h <;> cases h
    · exact fun h => if_pos h
  like _ _ := rfl

/-- `NGC 7000` is its only designation. -/
theorem browse_within_builder_ngc : BrowseWithin
    (rowTruth foldServer (fun _ _ => none) fun _ _ => none)
    (objectMatches .str "and".toList "ngc 7000".toList) "ngc 7000".toList := by
  have hplain : ("ngc 7000".toList.all fun c => decide (c ≠ '%' ∧ c ≠ '_')) = true := by decide
  refine (browse_within_builder_iff foldServer_collates fun c hc =>
    of_decide_eq_true (List.all_eq_true.mp hplain c hc)).mpr (Or.inr ?_)
  decide

/-- The pattern of `M31` does not match `M 31`, which is how the name is stored. -/
theorem builder_misses_messier : ¬ BrowseWithin
    (rowTruth foldServer (fun _ _ => none) fun _ _ => none)
    (objectMatches .str "and".toList "M31".toList) "M31".toList := by
  intro h
  have hplain : ("M31".toList.all fun c => decide (c ≠ '%' ∧ c ≠ '_')) = true := by decide
  have hinfix := occurs_of_within foldServer_collates (by decide)
    (fun c hc => of_decide_eq_true (List.all_eq_true.mp hplain c hc)) h
    (by decide : "M 31".toList ∈ Names.designations "M31".toList) (by decide)
  revert hinfix
  decide

end Values

end StarBase.Query
