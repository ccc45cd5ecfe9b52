import StarBase.Extract.Resolver
import StarBase.Query.Faults

/-!
# Comparisons on a row

The server compares the cells of a row with literals; what the operators of a filter mean on a row
follows from that.

* `leafTruth` — the truth of a comparison on a row, `NULL` on a null cell;
* `comparison_coherent_iff` — **PROVED**: negation, membership and ranges agree with the other
  operators on every field but `object`, and there exactly when the name as written and the
  canonical name are the same names;
* `own_name_selected_iff` — **PROVED**: a frame is selected by its own object name unless the name
  is a placeholder.
-/

namespace StarBase.Query

open Extract

/-! ### What the server decides -/

/-- How the server compares a cell that is not null with a literal. -/
structure CellOrder (V : Type) where
  compare : V → Lit → Ordering
  like : V → Lit → Bool

/-- The cells of a row of `v_frames`. -/
abbrev Cells (V : Type) := Str → Option V

/-- An operator of `binops` on the outcome of a comparison. -/
def sqlTest (sqlOp : Str) (o : Ordering) : Bool :=
  if sqlOp = "=".toList then o = .eq
  else if sqlOp = "<>".toList then o ≠ .eq
  else if sqlOp = "<".toList then o = .lt
  else if sqlOp = "<=".toList then o ≠ .gt
  else if sqlOp = ">".toList then o = .gt
  else if sqlOp = ">=".toList then o ≠ .lt
  else false

section Truth

variable {V : Type} (srv : CellOrder V) (other : Leaf → Option Bool) (cells : Cells V)

/-- The truth of a leaf on a row; `other` decides the leaves that compare no cell. -/
def leafTruth : Leaf → Option Bool
  | .isNull f negated => some ((cells f).isNone != negated)
  | .compare f sqlOp v => (cells f).map fun x =>
      if sqlOp = "LIKE".toList then srv.like x v else sqlTest sqlOp (srv.compare x v)
  | .isIn f vs => (cells f).map fun x => vs.any fun v => srv.compare x v = .eq
  | .between f lo hi => (cells f).map fun x =>
      decide (srv.compare x lo ≠ .lt) && decide (srv.compare x hi ≠ .gt)
  | .object sqlLike names => (cells "object_canonical".toList).map fun x => names.any fun d =>
      if sqlLike then srv.like x (.text ('%' :: d ++ ['%']))
      else srv.compare x (.text d) = .eq
  | l => other l

/-- The row is selected by the filter. -/
def Selected (ast : Json) : Prop :=
  ∃ c, compileFilter ast = .ok c ∧ c.eval (leafTruth srv other cells) = some true

variable {srv other cells}

theorem selected_leaf {ast : Json} {l : Leaf} (h : compileFilter ast = .ok (.leaf l)) :
    Selected srv other cells ast ↔ leafTruth srv other cells l = some true := by
  constructor
  · rintro ⟨c, hc, htrue⟩
    rw [h] at hc
    cases hc
    exact htrue
  · exact fun htrue => ⟨_, h, htrue⟩

end Truth

/-! ### One comparison -/

/-- `{"field": field, "op": op, "value": v}` -/
def comparison (field op : Str) (v : Json) : Json :=
  .obj [("field".toList, .str field), ("op".toList, .str op), ("value".toList, v)]

theorem comparison_value (field op : Str) (v : Json) :
    (comparison field op v).at? "value".toList = some v := rfl

theorem comparison_op (field op d : Str) (v : Json) :
    (comparison field op v).valueStr "op".toList d = .ok op := rfl

/-- The operators of a comparison with a value. -/
def comparisonOps : List Str := "in".toList :: "between".toList :: binops.map Prod.fst

theorem comparisonOps_fixed : ∀ op ∈ comparisonOps, op ∉ logicalOps ∧ op ∉ membershipOps ∧
    op ≠ "isnull".toList ∧ op ≠ "notnull".toList := by
  decide

/-- A comparison of an allowlisted field compiles to its operator or to an object search. -/
theorem compileFilter_comparison {field op : Str} {type : FieldType} {v : Json}
    (hfield : fields.lookup field = some type) (hop : op ∈ comparisonOps) :
    compileFilter (comparison field op v) =
      Cond.leaf <$> (objectNames field op (comparison field op v)).elim
        (compileOperator field type op (comparison field op v))
        fun names => pure (.object (decide (op = "like".toList)) names) := by
  obtain ⟨hlogic, hmember, hisnull, hnotnull⟩ := comparisonOps_fixed op hop
  have hnode : nodeOp (comparison field op v) = op := nodeOp_eq (comparison_op field op [] v)
  have hneither : ¬((nodeOp (comparison field op v) = "and".toList ∨
      nodeOp (comparison field op v) = "or".toList) ∨
      nodeOp (comparison field op v) = "not".toList) := by
    rw [← logical_cases, hnode]
    exact hlogic
  obtain ⟨hjoin, hnot⟩ := not_or.mp hneither
  show compileObject (comparison field op v) _ = _
  rw [compileObject_eq (comparison_op field op [] v), if_neg hjoin, if_neg hnot]
  congr 1
  have hcone : op ≠ "cone".toList := fun h => hmember (by rw [h]; decide)
  have htag : ¬(op = "tagged".toList ∨ op = "untagged".toList) := by
    rintro (h | h) <;> exact hmember (by rw [h]; decide)
  have hin : op ≠ "in_collection".toList := fun h => hmember (by rw [h]; decide)
  unfold compileLeaf
  rw [hnode, if_neg hcone, if_neg htag, if_neg hin]
  show (if "keyword:".toList.isPrefixOf field = true then _ else _) = _
  rw [columns_not_keyword field (mem_columns hfield), if_neg Bool.false_ne_true, hfield]
  show (if op = "isnull".toList then _ else _) = _
  rw [if_neg hisnull, if_neg hnotnull]
  cases hnames : objectNames field op (comparison field op v) with
  | none => rfl
  | some names => rfl

/-! ### Values of a field -/

/-- Numbers for a numeric field, strings for the others. -/
def FieldType.Takes : FieldType → Json → Prop
  | .num, v => (num? v).isSome ∨ ∃ s, v = .str s ∧ isNumeric s = true
  | _, v => ∃ s, v = .str s

theorem literal_ok {type : FieldType} {v : Json} (h : type.Takes v) :
    ∃ lit, literal type v = .ok lit := by
  cases type with
  | num =>
    rcases h with h | ⟨s, rfl, hs⟩
    · obtain ⟨n, hn⟩ := Option.isSome_iff_exists.mp h
      refine ⟨.num n, ?_⟩
      unfold literal
      rw [hn]
    · exact ⟨.numText s, if_pos hs⟩
  | str =>
    obtain ⟨s, rfl⟩ := h
    exact ⟨.text s, rfl⟩
  | date =>
    obtain ⟨s, rfl⟩ := h
    exact ⟨.text s, rfl⟩

/-- The literals of a list of values. -/
theorem mapM_literal_ok {type : FieldType} {vs : List Json} (h : ∀ w ∈ vs, type.Takes w) :
    ∃ lits, vs.mapM (literal type) = .ok lits ∧
      ∀ lit, lit ∈ lits ↔ ∃ w ∈ vs, literal type w = .ok lit := by
  induction vs with
  | nil => exact ⟨[], rfl, by simp⟩
  | cons w ws ih =>
    obtain ⟨l, hl⟩ := literal_ok (h w List.mem_cons_self)
    obtain ⟨ls, hls, hmem⟩ := ih fun x hx => h x (List.mem_cons_of_mem _ hx)
    refine ⟨l :: ls, ?_, fun lit => ?_⟩
    · rw [List.mapM_cons, hl]
      show (ws.mapM (literal type) >>= fun ls => pure (l :: ls)) = _
      rw [hls]
      rfl
    · rw [List.mem_cons, hmem, List.exists_mem_cons_iff, hl, Except.ok.injEq]
      exact or_congr_left eq_comm

section Laws

variable {V : Type} {srv : CellOrder V} {other : Leaf → Option Bool} {cells : Cells V}
variable {field : Str} {type : FieldType}

/-- The cell of the field equals the value. -/
def CellIs (srv : CellOrder V) (cells : Cells V) (field : Str) (type : FieldType) (v : Json) :
    Prop :=
  ∃ x lit, cells field = some x ∧ literal type v = .ok lit ∧ srv.compare x lit = .eq

/-- A designation of the name is the canonical name of the row. -/
def CanonicalIs (srv : CellOrder V) (cells : Cells V) (name : Str) : Prop :=
  ∃ x, cells "object_canonical".toList = some x ∧
    ∃ d ∈ Names.designations name, srv.compare x (.text d) = .eq

/-- A comparison that is no object search. -/
theorem compileFilter_operator {op : Str} {v : Json} (hfield : fields.lookup field = some type)
    (hop : op ∈ comparisonOps)
    (hplain : field ≠ "object".toList ∨ op ≠ "eq".toList ∧ op ≠ "like".toList) :
    compileFilter (comparison field op v) =
      Cond.leaf <$> compileOperator field type op (comparison field op v) := by
  have hnames : objectNames field op (comparison field op v) = none := by
    unfold objectNames
    split
    · refine if_neg fun h => ?_
      rcases hplain with hne | ⟨heq, hlike⟩
      · exact hne h.1
      · exact h.2.elim heq hlike
    · rfl
  rw [compileFilter_comparison hfield hop, hnames]
  rfl

theorem selected_binop {op sql : Str} {v : Json} {lit : Lit} {x : V}
    (hfield : fields.lookup field = some type) (hsql : binops.lookup op = some sql)
    (hplain : field ≠ "object".toList ∨ op ≠ "eq".toList ∧ op ≠ "like".toList)
    (hlit : literal type v = .ok lit) (hx : cells field = some x) (hnot : sql ≠ "LIKE".toList) :
    Selected srv other cells (comparison field op v) ↔ sqlTest sql (srv.compare x lit) = true := by
  have hmem : op ∈ binops.map Prod.fst := by
    obtain ⟨l₁, l₂, hl, -⟩ := List.lookup_eq_some_iff.mp hsql
    rw [hl]
    simp
  have hneither : ∀ op ∈ binops.map Prod.fst, op ≠ "in".toList ∧ op ≠ "between".toList := by decide
  obtain ⟨hin, hbetween⟩ := hneither op hmem
  have hcompile : compileFilter (comparison field op v) = .ok (.leaf (.compare field sql lit)) := by
    rw [compileFilter_operator hfield (List.mem_cons_of_mem _ (List.mem_cons_of_mem _ hmem)) hplain]
    unfold compileOperator
    rw [if_neg hin, if_neg hbetween, hsql, comparison_value]
    show Cond.leaf <$> (literal type v >>= fun lit => pure (.compare field sql lit)) = _
    rw [hlit]
    rfl
  rw [selected_leaf hcompile]
  show (cells field).map _ = some true ↔ _
  rw [hx, Option.map_some, if_neg hnot, Option.some_inj]

theorem selected_in {vs : List Json} {x : V} (hfield : fields.lookup field = some type)
    (hvs : ∀ w ∈ vs, type.Takes w) (hne : vs ≠ []) (hx : cells field = some x) :
    Selected srv other cells (comparison field "in".toList (.arr vs)) ↔
      ∃ w ∈ vs, CellIs srv cells field type w := by
  obtain ⟨lits, hlits, hmem⟩ := mapM_literal_ok hvs
  have hcompile : compileFilter (comparison field "in".toList (.arr vs)) =
      .ok (.leaf (.isIn field lits)) := by
    rw [compileFilter_operator hfield (by decide) (Or.inr (by decide))]
    obtain ⟨w, ws, rfl⟩ := List.exists_cons_of_ne_nil hne
    show Cond.leaf <$> ((w :: ws).mapM (literal type) >>= fun vs => pure (.isIn field vs)) = _
    rw [hlits]
    rfl
  rw [selected_leaf hcompile]
  show (cells field).map _ = some true ↔ _
  rw [hx, Option.map_some, Option.some_inj, List.any_eq_true]
  constructor
  · rintro ⟨lit, hlit, heq⟩
    obtain ⟨w, hw, hwlit⟩ := (hmem lit).mp hlit
    exact ⟨w, hw, x, lit, hx, hwlit, of_decide_eq_true heq⟩
  · rintro ⟨w, hw, y, lit, hy, hwlit, heq⟩
    rw [hx] at hy
    cases hy
    exact ⟨lit, (hmem lit).mpr ⟨w, hw, hwlit⟩, decide_eq_true heq⟩

theorem selected_between {lo hi : Json} {l h : Lit} {x : V}
    (hfield : fields.lookup field = some type) (hl : literal type lo = .ok l)
    (hh : literal type hi = .ok h) (hx : cells field = some x) :
    Selected srv other cells (comparison field "between".toList (.arr [lo, hi])) ↔
      srv.compare x l ≠ .lt ∧ srv.compare x h ≠ .gt := by
  have hcompile : compileFilter (comparison field "between".toList (.arr [lo, hi])) =
      .ok (.leaf (.between field l h)) := by
    rw [compileFilter_operator hfield (by decide) (Or.inr (by decide))]
    show Cond.leaf <$> (literal type lo >>= fun l => literal type hi >>= fun h =>
      pure (.between field l h)) = _
    rw [hl, hh]
    rfl
  rw [selected_leaf hcompile]
  show (cells field).map _ = some true ↔ _
  rw [hx, Option.map_some, Option.some_inj, Bool.and_eq_true, decide_eq_true_iff,
    decide_eq_true_iff]

/-- An object search compares the canonical name. -/
theorem selected_object {name : Str} :
    Selected srv other cells (comparison "object".toList "eq".toList (.str name)) ↔
      CanonicalIs srv cells name := by
  have hcompile : compileFilter (comparison "object".toList "eq".toList (.str name)) =
      .ok (.leaf (.object false (Names.designations name))) := by
    have hfield : fields.lookup "object".toList = some .str := rfl
    rw [compileFilter_comparison hfield (by decide)]
    rfl
  rw [selected_leaf hcompile]
  show (cells "object_canonical".toList).map _ = some true ↔ _
  rw [Option.map_eq_some_iff]
  refine exists_congr fun x => and_congr_right fun _ => ?_
  rw [List.any_eq_true]
  refine exists_congr fun d => and_congr_right fun _ => ?_
  rw [if_neg Bool.false_ne_true, decide_eq_true_iff]

/-! ### The laws -/

/-- Negation, membership and range agree with the other operators on the row. -/
structure Coherent (srv : CellOrder V) (other : Leaf → Option Bool) (cells : Cells V) (field : Str)
    (v : Json) (vs : List Json) (lo hi : Json) : Prop where
  negation : Selected srv other cells (comparison field "ne".toList v) ↔
    ¬Selected srv other cells (comparison field "eq".toList v)
  membership : Selected srv other cells (comparison field "in".toList (.arr vs)) ↔
    ∃ w ∈ vs, Selected srv other cells (comparison field "eq".toList w)
  range : Selected srv other cells (comparison field "between".toList (.arr [lo, hi])) ↔
    Selected srv other cells (comparison field "gte".toList lo) ∧
      Selected srv other cells (comparison field "lte".toList hi)

/-- The object as written is the value, or one of the values, just when its canonical name is. -/
structure NamesAgree (srv : CellOrder V) (cells : Cells V) (v : Json) (vs : List Json) : Prop where
  value : ∀ name, v = .str name →
    (CellIs srv cells "object".toList .str v ↔ CanonicalIs srv cells name)
  values : (∃ w ∈ vs, CellIs srv cells "object".toList .str w) ↔
    ∃ name, .str name ∈ vs ∧ CanonicalIs srv cells name

theorem cellIs_iff {v : Json} {lit : Lit} {x : V} (hlit : literal type v = .ok lit)
    (hx : cells field = some x) :
    CellIs srv cells field type v ↔ srv.compare x lit = .eq := by
  constructor
  · rintro ⟨y, l, hy, hl, heq⟩
    rw [hx] at hy
    rw [hlit] at hl
    cases hy
    cases hl
    exact heq
  · exact fun heq => ⟨x, lit, hx, hlit, heq⟩

/-- Inequality negates the comparison of the cell, on every field. -/
theorem selected_ne {v : Json} {x : V} (hfield : fields.lookup field = some type)
    (hv : type.Takes v) (hx : cells field = some x) :
    Selected srv other cells (comparison field "ne".toList v) ↔
      ¬CellIs srv cells field type v := by
  obtain ⟨lit, hlit⟩ := literal_ok hv
  have hsql : binops.lookup "ne".toList = some "<>".toList := rfl
  rw [selected_binop hfield hsql (Or.inr (by decide)) hlit hx (by decide), cellIs_iff hlit hx]
  exact decide_eq_true_iff

/-- Equality compares the cell, on every field but `object`. -/
theorem selected_eq {v : Json} {x : V} (hfield : fields.lookup field = some type)
    (hplain : field ≠ "object".toList) (hv : type.Takes v) (hx : cells field = some x) :
    Selected srv other cells (comparison field "eq".toList v) ↔ CellIs srv cells field type v := by
  obtain ⟨lit, hlit⟩ := literal_ok hv
  have hsql : binops.lookup "eq".toList = some "=".toList := rfl
  rw [selected_binop hfield hsql (Or.inl hplain) hlit hx (by decide), cellIs_iff hlit hx]
  exact decide_eq_true_iff

/-- A range is a lower and an upper bound, on every field. -/
theorem selected_range {lo hi : Json} {x : V} (hfield : fields.lookup field = some type)
    (hlo : type.Takes lo) (hhi : type.Takes hi) (hx : cells field = some x) :
    Selected srv other cells (comparison field "between".toList (.arr [lo, hi])) ↔
      Selected srv other cells (comparison field "gte".toList lo) ∧
        Selected srv other cells (comparison field "lte".toList hi) := by
  obtain ⟨l, hl⟩ := literal_ok hlo
  obtain ⟨h, hh⟩ := literal_ok hhi
  have hgte : binops.lookup "gte".toList = some ">=".toList := rfl
  have hlte : binops.lookup "lte".toList = some "<=".toList := rfl
  rw [selected_between hfield hl hh hx,
    selected_binop hfield hgte (Or.inr (by decide)) hl hx (by decide),
    selected_binop hfield hlte (Or.inr (by decide)) hh hx (by decide)]
  exact and_congr decide_eq_true_iff.symm decide_eq_true_iff.symm

/-- **The operators cohere** on every field but `object`, and there exactly when the name as
written and the canonical name of the row agree. -/
theorem comparison_coherent_iff {v : Json} {vs : List Json} {lo hi : Json}
    (hfield : fields.lookup field = some type) (hv : type.Takes v) (hvs : ∀ w ∈ vs, type.Takes w)
    (hne : vs ≠ []) (hlo : type.Takes lo) (hhi : type.Takes hi) (hcell : (cells field).isSome) :
    Coherent srv other cells field v vs lo hi ↔
      (field = "object".toList → NamesAgree srv cells v vs) := by
  obtain ⟨x, hx⟩ := Option.isSome_iff_exists.mp hcell
  have hrange : Selected srv other cells _ ↔ _ := selected_range hfield hlo hhi hx
  have hneg : Selected srv other cells _ ↔ _ := selected_ne hfield hv hx
  have hmem : Selected srv other cells _ ↔ _ := selected_in hfield hvs hne hx
  by_cases hobject : field = "object".toList
  · subst hobject
    obtain rfl : type = .str := (Option.some.inj hfield).symm
    obtain ⟨name, rfl⟩ := hv
    have hsearch : (∃ w ∈ vs, Selected srv other cells (comparison "object".toList "eq".toList w)) ↔
        ∃ name, .str name ∈ vs ∧ CanonicalIs srv cells name := by
      constructor
      · rintro ⟨w, hw, hsel⟩
        obtain ⟨s, rfl⟩ := hvs w hw
        exact ⟨s, hw, selected_object.mp hsel⟩
      · rintro ⟨s, hw, hcanon⟩
        exact ⟨.str s, hw, selected_object.mpr hcanon⟩
    constructor
    · rintro ⟨hlaw, hlaw', -⟩ -
      rw [hneg, selected_object] at hlaw
      rw [hmem, hsearch] at hlaw'
      refine ⟨fun s hs => ?_, hlaw'⟩
      cases hs
      exact not_iff_not.mp hlaw
    · intro h
      obtain ⟨hvalue, hvalues⟩ := h rfl
      refine ⟨?_, ?_, hrange⟩
      · rw [hneg, selected_object]
        exact not_congr (hvalue name rfl)
      · rw [hmem, hsearch]
        exact hvalues
  · refine iff_of_true ⟨?_, ?_, hrange⟩ fun h => absurd h hobject
    · rw [hneg]
      exact not_congr (selected_eq hfield hobject hv hx).symm
    · rw [hmem]
      refine exists_congr fun w => and_congr_right fun hw => ?_
      exact (selected_eq hfield hobject (hvs w hw) hx).symm

end Laws

/-- Texts compared by their characters. -/
def byteOrder : CellOrder Str where
  compare x
    | .text s => if x = s then .eq else if x < s then .lt else .gt
    | _ => .gt
  like x lit := lit = .text x

/-- A filter, on a row where it is `Ha`. -/
theorem filter_coherent : Coherent byteOrder (fun _ => none) (fun _ => some "Ha".toList)
    "filter".toList (.str "Ha".toList) [.str "Ha".toList, .str "OIII".toList] (.str "A".toList)
    (.str "Z".toList) := by
  have htakes : ∀ s, FieldType.str.Takes (.str s) := fun s => ⟨s, rfl⟩
  have hfield : fields.lookup "filter".toList = some .str := rfl
  refine (comparison_coherent_iff hfield (htakes _) ?_ (List.cons_ne_nil _ _) (htakes _) (htakes _)
    rfl).mpr fun h => absurd h (by decide)
  intro w hw
  rcases List.mem_cons.mp hw with rfl | hw
  · exact htakes _
  · rw [List.mem_singleton.mp hw]
    exact htakes _

/-- `NGC 224`, stored under its canonical name. -/
def andromeda : Cells Str := fun field =>
  if field = "object".toList then some "NGC 224".toList
  else if field = "object_canonical".toList then some "M 31".toList
  else none

/-- `NGC 224` is `M31` and is not `M31`. -/
theorem object_incoherent : ¬Coherent byteOrder (fun _ => none) andromeda "object".toList
    (.str "M31".toList) [.str "M31".toList] (.str "M".toList) (.str "N".toList) := by
  rintro ⟨hneg, -, -⟩
  have heq : Selected byteOrder (fun _ => none) andromeda
      (comparison "object".toList "eq".toList (.str "M31".toList)) := by
    refine selected_object.mpr ⟨"M 31".toList, by decide, "M 31".toList, ?_, by decide⟩
    decide
  have hne : Selected byteOrder (fun _ => none) andromeda
      (comparison "object".toList "ne".toList (.str "M31".toList)) := by
    have hfield : fields.lookup "object".toList = some .str := rfl
    have hcell : andromeda "object".toList = some "NGC 224".toList := rfl
    refine (selected_ne hfield ⟨_, rfl⟩ hcell).mpr ?_
    rintro ⟨x, lit, hx, hlit, hsame⟩
    cases hx
    cases hlit
    revert hsame
    decide
  exact hneg.mp hne heq

/-! ### A frame under its own name -/

section OwnName

variable [Host] {V : Type} {srv : CellOrder V} {other : Leaf → Option Bool}

omit [Host] in
/-- The row of a resolved frame, from the texts of its names. -/
def objectCells (text : Str → V) (rf : ResolvedFrame) (rest : Cells V) : Cells V := fun field =>
  if field = "object".toList then rf.object.map text
  else if field = "object_canonical".toList then rf.objectCanonical.map text
  else rest field

omit [Host] in
theorem canonical_mem_designations (name : Str) :
    (Names.canonicalize name).canonical ∈ Names.designations name := by
  unfold Names.designations
  dsimp only
  split
  · exact List.mem_cons_self
  · exact List.mem_singleton_self _

/-- The canonical name that is stored with a name. -/
theorem resolve_canonical {h : Hdu} {m : HeaderMapping} {site : SiteContext} {rf : ResolvedFrame}
    {name : Str} (hresolve : resolve h m site = .ok rf) (hname : rf.object = some name) :
    rf.objectCanonical = if (Names.canonicalize name).placeholder then none
      else some (Names.canonicalize name).canonical := by
  have hobject : rf.object = (resolveObject h m).1 ∧ rf.objectCanonical = (resolveObject h m).2 := by
    unfold resolve at hresolve
    cases hra : resolveCoord h m "ra".toList true with
    | error e =>
      rw [hra] at hresolve
      cases hresolve
    | ok ra =>
      cases hdec : resolveCoord h m "dec".toList false with
      | error e =>
        rw [hra, hdec] at hresolve
        cases hresolve
      | ok dec =>
        rw [hra, hdec] at hresolve
        cases hresolve
        exact ⟨rfl, rfl⟩
  rw [hobject.2]
  rw [hobject.1] at hname
  unfold resolveObject at hname ⊢
  cases hraw : resolveRaw h m "object".toList with
  | none =>
    rw [hraw] at hname
    cases hname
  | some raw =>
    rw [hraw] at hname
    dsimp only at hname ⊢
    split at hname
    · cases hname
    · next hne =>
      rw [if_neg hne]
      cases hname
      rfl

/-- **A frame is selected by its own object name** exactly when the name is no placeholder. -/
theorem own_name_selected_iff {h : Hdu} {m : HeaderMapping} {site : SiteContext}
    {rf : ResolvedFrame} {name : Str} (text : Str → V) (rest : Cells V)
    (hself : ∀ s, srv.compare (text s) (.text s) = .eq) (hresolve : resolve h m site = .ok rf)
    (hname : rf.object = some name) :
    Selected srv other (objectCells text rf rest)
        (comparison "object".toList "eq".toList (.str name)) ↔
      (Names.canonicalize name).placeholder = false := by
  have hcell : objectCells text rf rest "object_canonical".toList = rf.objectCanonical.map text :=
    rfl
  rw [selected_object]
  unfold CanonicalIs
  rw [hcell, resolve_canonical hresolve hname]
  cases hplace : (Names.canonicalize name).placeholder with
  | true =>
    refine iff_of_false ?_ Bool.noConfusion
    rintro ⟨x, hx, -⟩
    cases hx
  | false =>
    refine iff_of_true ⟨_, rfl, _, canonical_mem_designations name, hself _⟩ rfl

end OwnName

section

attribute [local instance] plainHost

/-- An image whose header names its object. -/
def named (name : String) : Hdu := ⟨0, true, 16, 2, 10, 10, [⟨"OBJECT".toList, name.toList, []⟩]⟩

/-- What is indexed of it, with the default mapping. -/
def namedFrame (name : String) (canonical : Option String) : ResolvedFrame where
  object := some name.toList
  objectCanonical := canonical.map String.toList
  naxis1 := some 10
  naxis2 := some 10

theorem own_name_messier : Selected byteOrder (fun _ => none)
    (objectCells id (namedFrame "M31" (some "M 31")) fun _ => none)
    (comparison "object".toList "eq".toList (.str "M31".toList)) := by
  have hresolve : resolve (named "M31") .defaults ⟨0⟩ = .ok (namedFrame "M31" (some "M 31")) := by
    decide
  exact (own_name_selected_iff id (fun _ => none) (fun s => if_pos rfl) hresolve rfl).mpr
    (by decide)

/-- `Test` is a placeholder: the frame has a name and is not found by it. -/
theorem placeholder_not_found :
    resolve (named "Test") .defaults ⟨0⟩ = .ok (namedFrame "Test" none) ∧
      ¬Selected byteOrder (fun _ => none) (objectCells id (namedFrame "Test" none) fun _ => none)
        (comparison "object".toList "eq".toList (.str "Test".toList)) := by
  refine ⟨by decide, fun h => ?_⟩
  obtain ⟨x, hx, -⟩ := selected_object.mp h
  cases hx

end

end StarBase.Query
