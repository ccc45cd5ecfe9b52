import StarBase.Query.FilterRead

/-!
# What a filter means

A filter document stands for a boolean tree whose predicates are told by its nodes alone: the field,
the operator and the value of each.  The compiler's text is read as that tree.

* `sqlComparison`, `ValueMeans` — how SQL writes an operator and a value;
* `LeafMeans` — the predicate of a comparison, a cone, a tag or a collection;
* `Means` — the tree of a document;
* `compileNode_means` — **PROVED**: what a document compiles to is what it means;
* `text_faithful` — **PROVED**: the text of every filter reads as its tree, and the text of every
  sort specification as its keys.

How a number is printed is told apart from this, with the literals; a numeric column is compared with
JSON numbers here.
-/

namespace StarBase.Query

open Sql Extract Names

/-! ### Operators and values -/

/-- The operator of a comparison, `eq` where none is given. -/
def comparisonOp (node : Json) : Str :=
  match node.at? "op".toList with
  | none => "eq".toList
  | some (.str op) => op
  | some _ => []

/-- How SQL writes a comparison. -/
def sqlComparison (op : Str) : Option Item :=
  if op = "eq".toList then some (.atom (.sym "=".toList))
  else if op = "ne".toList then some (.atom (.sym "<>".toList))
  else if op = "lt".toList then some (.atom (.sym "<".toList))
  else if op = "lte".toList then some (.atom (.sym "<=".toList))
  else if op = "gt".toList then some (.atom (.sym ">".toList))
  else if op = "gte".toList then some (.atom (.sym ">=".toList))
  else if op = "like".toList then some (.atom (.word "LIKE".toList))
  else none

/-- A tag or a collection: a number is its id, a string its name. -/
def setRef? (v : Json) : Option SetRef :=
  match v with
  | .int i => some (.id (.int i))
  | .float neg num den => some (.id (.float neg num den))
  | .str s => some (.name s)
  | _ => none

section Meaning

variable (ses : SqlSession)

/-- The items of a value for a column of a type, and the strings in it: a number stands as a number
for a numeric column, and quoted for any other. -/
inductive ValueMeans : FieldType → Json → List Item × List Str → Prop
  | number {v : Json} {n : JsonNum} (hn : num? v = some n) : ValueMeans .num v (n.numeral.items, [])
  | string {t : FieldType} (ht : t ≠ .num) (s : Str) :
      ValueMeans t (.str s) ([textItem (ses.escape s)], [ses.escape s])
  | quoted {t : FieldType} {v : Json} {n : JsonNum} (ht : t ≠ .num) (hn : num? v = some n) :
      ValueMeans t v ([textItem (ses.escape n.fixed.text)], [ses.escape n.fixed.text])

/-- The tree of a part of a filter, and the strings quoted in it. -/
structure Meaning where
  tree : Tree
  texts : List Str

/-- What a node that joins no others asks for. -/
inductive LeafMeans (node : Json) : Meaning → Prop
  | isNull {field : Str} (hf : node.at? "field".toList = some (.str field)) (hc : field ∈ columns)
      (hop : comparisonOp node = "isnull".toList) :
      LeafMeans node ⟨.pred [wordItem field, kwItem "IS", kwItem "NULL"], []⟩
  | notNull {field : Str} (hf : node.at? "field".toList = some (.str field)) (hc : field ∈ columns)
      (hop : comparisonOp node = "notnull".toList) :
      LeafMeans node ⟨.pred [wordItem field, kwItem "IS", kwItem "NOT", kwItem "NULL"], []⟩
  /-- An object by all its designations. -/
  | object {s : Str} (hf : node.at? "field".toList = some (.str "object".toList))
      (hop : comparisonOp node = "eq".toList) (hv : node.at? "value".toList = some (.str s)) :
      LeafMeans node
        ⟨joined .or ((designations s).map fun d =>
          .pred [wordItem "object_canonical".toList, .atom (.sym ['=']), textItem (ses.escape d)]),
          (designations s).map ses.escape⟩
  | objectLike {s : Str} (hf : node.at? "field".toList = some (.str "object".toList))
      (hop : comparisonOp node = "like".toList) (hv : node.at? "value".toList = some (.str s)) :
      LeafMeans node
        ⟨joined .or ((designations s).map fun d =>
          .pred [wordItem "object_canonical".toList, kwItem "LIKE",
            textItem ('%' :: (ses.escape d ++ ['%']))]),
          (designations s).map fun d => '%' :: (ses.escape d ++ ['%'])⟩
  | isIn {field : Str} {type : FieldType} {vs : List Json} {ps : List (List Item × List Str)}
      (hf : node.at? "field".toList = some (.str field)) (ht : fields.lookup field = some type)
      (hop : comparisonOp node = "in".toList) (hv : node.at? "value".toList = some (.arr vs))
      (hps : List.Forall₂ (ValueMeans ses type) vs ps) :
      LeafMeans node
        ⟨.pred [wordItem field, kwItem "IN", .group (joinItems (.atom (.sym [','])) (ps.map Prod.fst))],
          ps.flatMap Prod.snd⟩
  | between {field : Str} {type : FieldType} {lo hi : Json} {p q : List Item × List Str}
      (hf : node.at? "field".toList = some (.str field)) (ht : fields.lookup field = some type)
      (hop : comparisonOp node = "between".toList)
      (hv : node.at? "value".toList = some (.arr [lo, hi])) (hlo : ValueMeans ses type lo p)
      (hhi : ValueMeans ses type hi q) :
      LeafMeans node
        ⟨.pred (wordItem field :: kwItem "BETWEEN" :: (p.1 ++ kwItem "AND" :: q.1)), p.2 ++ q.2⟩
  /-- Any other comparison of a column. -/
  | compare {field : Str} {type : FieldType} {v : Json} {sign : Item} {p : List Item × List Str}
      (hf : node.at? "field".toList = some (.str field)) (ht : fields.lookup field = some type)
      (hop : sqlComparison (comparisonOp node) = some sign) (hv : node.at? "value".toList = some v)
      (hother : field = "object".toList →
        comparisonOp node = "eq".toList ∨ comparisonOp node = "like".toList → ∀ s, v ≠ .str s)
      (hp : ValueMeans ses type v p) :
      LeafMeans node ⟨.pred (wordItem field :: sign :: p.1), p.2⟩
  | keywordAbsent {kw : Str} (hf : node.at? "field".toList = some (.str ("keyword:".toList ++ kw)))
      (hop : comparisonOp node = "isnull".toList) :
      LeafMeans node ⟨.not (.pred (keywordItems ses kw [])), [ses.escape kw]⟩
  | keywordPresent {kw : Str} (hf : node.at? "field".toList = some (.str ("keyword:".toList ++ kw)))
      (hop : comparisonOp node = "notnull".toList) :
      LeafMeans node ⟨.pred (keywordItems ses kw []), [ses.escape kw]⟩
  /-- A card compared as a number. -/
  | keywordNumber {kw : Str} {v : Json} {n : JsonNum} {sign : Item}
      (hf : node.at? "field".toList = some (.str ("keyword:".toList ++ kw)))
      (hop : sqlComparison (comparisonOp node) = some sign) (hv : node.at? "value".toList = some v)
      (hn : num? v = some n) :
      LeafMeans node
        ⟨.pred (keywordItems ses kw (kwItem "AND" ::
          (phrase "CAST(k.value AS DECIMAL(20,6))" ++ sign :: n.numeral.items))), [ses.escape kw]⟩
  | keywordString {kw s : Str} {sign : Item}
      (hf : node.at? "field".toList = some (.str ("keyword:".toList ++ kw)))
      (hop : sqlComparison (comparisonOp node) = some sign)
      (hv : node.at? "value".toList = some (.str s)) :
      LeafMeans node
        ⟨.pred (keywordItems ses kw (kwItem "AND" ::
          (phrase "k.value" ++ [sign, textItem (ses.escape s)]))), [ses.escape kw, ses.escape s]⟩
  | cone {ra dec r : Json} {a d n : JsonNum} (hop : nodeOp node = "cone".toList)
      (hra : node.at? "ra".toList = some ra) (ha : num? ra = some a)
      (hdec : node.at? "dec".toList = some dec) (hd : num? dec = some d)
      (hr : node.at? "radius_deg".toList = some r) (hn : num? r = some n) :
      LeafMeans node ⟨coneTree ses a d n, []⟩
  | tagged {v : Json} {tag : SetRef} (hop : nodeOp node = "tagged".toList)
      (hv : node.at? "value".toList = some v) (htag : setRef? v = some tag) :
      LeafMeans node ⟨.pred (taggedItems ses tag), tag.texts ses⟩
  | untagged {v : Json} {tag : SetRef} (hop : nodeOp node = "untagged".toList)
      (hv : node.at? "value".toList = some v) (htag : setRef? v = some tag) :
      LeafMeans node ⟨.not (.pred (taggedItems ses tag)), tag.texts ses⟩
  | inCollection {v : Json} {collection : SetRef} (hop : nodeOp node = "in_collection".toList)
      (hv : node.at? "value".toList = some v) (hc : setRef? v = some collection) :
      LeafMeans node ⟨.pred (inCollectionItems ses collection), collection.texts ses⟩

/-- What a document asks for: the predicate of its leaf, or its clauses joined. -/
inductive Means : Json → Meaning → Prop
  | all {node : Json} {items : List Json} {ms : List Meaning} (hop : nodeOp node = "and".toList)
      (hclauses : node.at? "clauses".toList = some (.arr items))
      (h : List.Forall₂ Means items ms) :
      Means node ⟨joined .and (ms.map Meaning.tree), ms.flatMap Meaning.texts⟩
  | any {node : Json} {items : List Json} {ms : List Meaning} (hop : nodeOp node = "or".toList)
      (hclauses : node.at? "clauses".toList = some (.arr items))
      (h : List.Forall₂ Means items ms) :
      Means node ⟨joined .or (ms.map Meaning.tree), ms.flatMap Meaning.texts⟩
  | neg {node item : Json} {m : Meaning} (hop : nodeOp node = "not".toList)
      (hclauses : node.at? "clauses".toList = some (.arr [item])) (h : Means item m) :
      Means node ⟨.not m.tree, m.texts⟩
  | leaf {node : Json} {m : Meaning} (hop : nodeOp node ∉ logicalOps) (h : LeafMeans ses node m) :
      Means node m

/-- What a filter asks for: everything, if it is empty. -/
def FilterMeans (ast : Json) (m : Meaning) : Prop :=
  if isEmptyAst ast then m = ⟨.pred (phrase "1=1"), []⟩ else Means ses ast m

end Meaning

/-! ### The compiler finds it -/

section Compiled

variable {ses : SqlSession}

theorem comparisonOp_eq {node : Json} {op : Str}
    (h : node.valueStr "op".toList "eq".toList = .ok op) : comparisonOp node = op := by
  cases node with
  | obj fs =>
    have hat : (Json.obj fs).at? "op".toList = fs.lookup "op".toList := rfl
    cases hlook : fs.lookup "op".toList with
    | none =>
      rw [valueStr_absent hlook] at h
      cases h
      simp only [comparisonOp, hat, hlook]
    | some v =>
      rw [valueStr_obj hlook] at h
      cases v <;> cases h
      simp only [comparisonOp, hat, hlook]
  | null => cases h
  | bool b => cases h
  | int i => cases h
  | float neg num den => cases h
  | str s => cases h
  | arr items => cases h

/-- The table of operators is the one SQL has. -/
theorem sqlComparison_of_binops {op sql : Str} (h : binops.lookup op = some sql) :
    sqlComparison op = some (opItem sql) := by
  have hmem : (op, sql) ∈ binops := by
    obtain ⟨l₁, l₂, hl, -⟩ := List.lookup_eq_some_iff.mp h
    rw [hl]
    simp
  simp only [binops, List.mem_cons, List.not_mem_nil, or_false, Prod.mk.injEq] at hmem
  rcases hmem with ⟨rfl, rfl⟩ | ⟨rfl, rfl⟩ | ⟨rfl, rfl⟩ | ⟨rfl, rfl⟩ | ⟨rfl, rfl⟩ | ⟨rfl, rfl⟩ |
    ⟨rfl, rfl⟩ <;> rfl

/-- A number, in a column of any type. -/
theorem literal_number {type : FieldType} {v : Json} {n : JsonNum} (hn : num? v = some n) :
    literal type v = .ok (if type = .num then .num n else .quotedNum n) := by
  cases v <;> cases hn <;> cases type <;> rfl

theorem literal_means {type : FieldType} {v : Json} {lit : Lit} (h : literal type v = .ok lit)
    (hgiven : lit.Given) : ValueMeans ses type v (lit.items ses, lit.texts ses) := by
  cases hn : num? v with
  | some n =>
    rw [literal_number hn] at h
    cases h
    split
    · next ht =>
      rw [ht]
      exact .number hn
    · next ht => exact .quoted ht hn
  | none =>
    cases v with
    | str s =>
      cases type with
      | num =>
        have hread : (if isNumeric s then .ok (.numText s) else .error _) = Except.ok lit := h
        split at hread
        · cases hread
          exact hgiven.elim
        · cases hread
      | str =>
        cases h
        exact .string (by rintro ⟨⟩) s
      | date =>
        cases h
        exact .string (by rintro ⟨⟩) s
    | null => cases type <;> cases h
    | bool b => cases type <;> cases h
    | int i => cases hn
    | float neg num den => cases hn
    | arr items => cases type <;> cases h
    | obj fs => cases type <;> cases h

theorem literals_mean {type : FieldType} {vs : List Json} {lits : List Lit}
    (h : vs.mapM (literal type) = .ok lits) (hgiven : ∀ lit ∈ lits, lit.Given) :
    List.Forall₂ (ValueMeans ses type) vs (lits.map fun lit => (lit.items ses, lit.texts ses)) := by
  induction vs generalizing lits with
  | nil =>
    cases h
    exact .nil
  | cons v vs ih =>
    rw [List.mapM_cons] at h
    obtain ⟨lit, hlit, h⟩ := compile_bind_ok_iff.mp h
    obtain ⟨rest, hrest, h⟩ := compile_bind_ok_iff.mp h
    cases h
    exact .cons (literal_means hlit (hgiven lit (by simp)))
      (ih hrest fun l hl => hgiven l (List.mem_cons_of_mem _ hl))

theorem setRef_of_compileSetRef {node : Json} {missing wrong : Str} {ref : SetRef}
    (h : compileSetRef node missing wrong = .ok ref) :
    ∃ v, node.at? "value".toList = some v ∧ setRef? v = some ref := by
  unfold compileSetRef at h
  split at h
  · cases h
  · next v hv =>
    refine ⟨v, hv, ?_⟩
    cases v <;> cases h <;> rfl

/-! ### Leaves -/

/-- The tree of a leaf, with its strings. -/
def Leaf.meaning (ses : SqlSession) (l : Leaf) : Meaning := ⟨l.tree ses, l.texts ses⟩

theorem phrase_isNull : phrase "IS NULL" = [kwItem "IS", kwItem "NULL"] := by
  rw [phrase_ofList]
  rfl

theorem phrase_isNotNull : phrase "IS NOT NULL" = [kwItem "IS", kwItem "NOT", kwItem "NULL"] := by
  rw [phrase_ofList]
  rfl

theorem phrase_object_eq : phrase "object_canonical =" =
    [wordItem "object_canonical".toList, .atom (.sym ['='])] := by
  rw [phrase_ofList]
  rfl

theorem phrase_object_like : phrase "object_canonical LIKE" =
    [wordItem "object_canonical".toList, kwItem "LIKE"] := by
  rw [phrase_ofList]
  rfl

theorem comparisonOp_of_lift {node : Json} {op : Str}
    (h : liftJson (node.valueStr "op".toList "eq".toList) = .ok op) : comparisonOp node = op :=
  comparisonOp_eq (liftJson_eq_ok_iff.mp h)

theorem compileKeyword_means {node : Json} {kw : Str} {l : Leaf}
    (hf : node.at? "field".toList = some (.str ("keyword:".toList ++ kw)))
    (h : compileKeyword ("keyword:".toList ++ kw) node = .ok l) :
    LeafMeans ses node (l.meaning ses) := by
  unfold compileKeyword at h
  rw [List.drop_left] at h
  dsimp only at h
  split at h
  · cases h
  · obtain ⟨op, hop, h⟩ := compile_bind_ok_iff.mp h
    have hop := comparisonOp_of_lift hop
    split at h
    · next hnull =>
      cases h
      by_cases hisnull : op = "isnull".toList
      · rw [decide_eq_true hisnull]
        exact .keywordAbsent hf (hop.trans hisnull)
      · rw [decide_eq_false hisnull]
        exact .keywordPresent hf (hop.trans (hnull.resolve_left hisnull))
    · split at h
      · cases h
      · cases h
      · next sql v hsql hv =>
        have hsign : sqlComparison (comparisonOp node) = some (opItem sql) := by
          rw [hop]
          exact sqlComparison_of_binops hsql
        split at h
        · next n hn =>
          cases h
          exact .keywordNumber hf hsign hv hn
        · next hn =>
          obtain ⟨lit, hlit, h⟩ := compile_bind_ok_iff.mp h
          cases h
          cases v with
          | str s =>
            cases hlit
            exact .keywordString hf hsign hv
          | null => cases hlit
          | bool b => cases hlit
          | int i => cases hn
          | float neg num den => cases hn
          | arr items => cases hlit
          | obj fs => cases hlit

/-- An object search has the designations of its text. -/
theorem objectNames_eq {field op : Str} {node : Json} {names : List Str}
    (h : objectNames field op node = some names) :
    ∃ s, node.at? "value".toList = some (.str s) ∧ field = "object".toList ∧
      (op = "eq".toList ∨ op = "like".toList) ∧ names = designations s := by
  unfold objectNames at h
  split at h
  · next s hv =>
    split at h
    · next hobject =>
      cases h
      exact ⟨s, hv, hobject.1, hobject.2, rfl⟩
    · cases h
  · cases h

theorem objectNames_none {field op : Str} {node : Json} {v : Json}
    (hv : node.at? "value".toList = some v) (h : objectNames field op node = none) :
    field = "object".toList → op = "eq".toList ∨ op = "like".toList → ∀ s, v ≠ .str s := by
  rintro hfield hop s rfl
  unfold objectNames at h
  rw [hv] at h
  dsimp only at h
  rw [if_pos ⟨hfield, hop⟩] at h
  cases h

theorem designationItems_exact (d : Str) : designationItems ses false d =
    [wordItem "object_canonical".toList, .atom (.sym ['=']), textItem (ses.escape d)] := by
  show phrase "object_canonical =" ++ _ = _
  rw [phrase_object_eq]
  rfl

theorem designationItems_like (d : Str) : designationItems ses true d =
    [wordItem "object_canonical".toList, kwItem "LIKE", textItem ('%' :: (ses.escape d ++ ['%']))] := by
  show phrase "object_canonical LIKE" ++ _ = _
  rw [phrase_object_like]
  rfl

theorem object_means {node : Json} {op s : Str}
    (hf : node.at? "field".toList = some (.str "object".toList)) (hop : comparisonOp node = op)
    (hv : node.at? "value".toList = some (.str s)) (heq : op = "eq".toList ∨ op = "like".toList) :
    LeafMeans ses node (Leaf.meaning ses (.object (decide (op = "like".toList)) (designations s))) := by
  rcases heq with rfl | rfl
  · have hmeans : LeafMeans ses node _ := .object hf hop hv
    simp only [← designationItems_exact] at hmeans
    rw [decide_eq_false (by decide)]
    exact hmeans
  · have hmeans : LeafMeans ses node _ := .objectLike hf hop hv
    simp only [← designationItems_like] at hmeans
    rw [decide_eq_true rfl]
    exact hmeans

theorem compileOperator_means {node : Json} {field op : Str} {type : FieldType} {l : Leaf}
    (hf : node.at? "field".toList = some (.str field)) (htype : fields.lookup field = some type)
    (hop : comparisonOp node = op) (hobject : objectNames field op node = none)
    (h : compileOperator field type op node = .ok l) (hgiven : l.Allowed) :
    LeafMeans ses node (l.meaning ses) := by
  unfold compileOperator at h
  split at h
  · next hin =>
    obtain ⟨v, hv, h⟩ := compile_bind_ok_iff.mp h
    split at h
    · obtain ⟨vs, hvs, h⟩ := compile_bind_ok_iff.mp h
      cases h
      have hmeans : LeafMeans ses node _ := .isIn hf htype (hop.trans hin) (member_ok hv)
        (literals_mean hvs hgiven.2.2)
      rw [List.map_map, List.flatMap_map] at hmeans
      exact hmeans
    · cases h
  · split at h
    · next hbetween =>
      obtain ⟨v, hv, h⟩ := compile_bind_ok_iff.mp h
      split at h
      · obtain ⟨lo, hlo, h⟩ := compile_bind_ok_iff.mp h
        obtain ⟨hi, hhi, h⟩ := compile_bind_ok_iff.mp h
        cases h
        exact .between hf htype (hop.trans hbetween) (member_ok hv)
          (literal_means hlo hgiven.2.1) (literal_means hhi hgiven.2.2)
      · cases h
    · split at h
      · cases h
      · cases h
      · next sql v hsql hv =>
        obtain ⟨lit, hlit, h⟩ := compile_bind_ok_iff.mp h
        cases h
        have hsign : sqlComparison (comparisonOp node) = some (opItem sql) := by
          rw [hop]
          exact sqlComparison_of_binops hsql
        refine .compare hf htype hsign hv ?_ (literal_means hlit hgiven.2.2)
        rw [hop]
        exact objectNames_none hv hobject

theorem keyword_of_prefix {field : Str} (h : "keyword:".toList.isPrefixOf field = true) :
    ∃ kw, field = "keyword:".toList ++ kw := by
  obtain ⟨kw, hkw⟩ := List.isPrefixOf_iff_prefix.mp h
  exact ⟨kw, hkw.symm⟩

theorem compileComparison_means {node : Json} {l : Leaf} (h : compileComparison node = .ok l)
    (hgiven : l.Allowed) : LeafMeans ses node (l.meaning ses) := by
  obtain ⟨fieldJ, hfieldJ, h⟩ := compile_bind_ok_iff.mp h
  obtain ⟨field, hfield, h⟩ := compile_bind_ok_iff.mp h
  have hf : node.at? "field".toList = some (.str field) := by
    unfold requireString at hfield
    split at hfield
    · cases hfield
      exact member_ok hfieldJ
    · cases hfield
  split at h
  · next hprefix =>
    obtain ⟨kw, rfl⟩ := keyword_of_prefix hprefix
    exact compileKeyword_means hf h
  · split at h
    · cases h
    · next type htype =>
      obtain ⟨op, hop, h⟩ := compile_bind_ok_iff.mp h
      have hop := comparisonOp_of_lift hop
      split at h
      · next hnull =>
        cases h
        have hmeans : LeafMeans ses node _ := .isNull hf (mem_columns htype) (hop.trans hnull)
        rw [← phrase_isNull] at hmeans
        exact hmeans
      · split at h
        · next hnull =>
          cases h
          have hmeans : LeafMeans ses node _ := .notNull hf (mem_columns htype) (hop.trans hnull)
          rw [← phrase_isNotNull] at hmeans
          exact hmeans
        · split at h
          · next names hnames =>
            cases h
            obtain ⟨s, hv, rfl, heq, rfl⟩ := objectNames_eq hnames
            exact object_means hf hop hv heq
          · next hobject => exact compileOperator_means hf htype hop hobject h hgiven

theorem getDouble_num {j : Json} {n : JsonNum} (h : getDouble j = .ok n) : num? j = some n := by
  unfold getDouble at h
  split at h
  · next m hm =>
    cases h
    exact hm
  · cases h

theorem compileCone_means {node : Json} {l : Leaf} (hop : nodeOp node = "cone".toList)
    (h : compileCone node = .ok l) : LeafMeans ses node (l.meaning ses) := by
  unfold compileCone at h
  split at h
  · next raJ decJ rJ hra hdec hr =>
    obtain ⟨ra, hraN, h⟩ := compile_bind_ok_iff.mp h
    obtain ⟨dec, hdecN, h⟩ := compile_bind_ok_iff.mp h
    obtain ⟨r, hrN, h⟩ := compile_bind_ok_iff.mp h
    split at h
    · cases h
    · cases h
      exact .cone hop hra (getDouble_num hraN) hdec (getDouble_num hdecN) hr (getDouble_num hrN)
  · cases h

theorem compileLeaf_means {node : Json} {l : Leaf} (h : compileLeaf node = .ok l)
    (hgiven : l.Allowed) : LeafMeans ses node (l.meaning ses) := by
  unfold compileLeaf at h
  split at h
  · next hcone => exact compileCone_means hcone h
  · split at h
    · next htag =>
      obtain ⟨ref, href, h⟩ := compile_bind_ok_iff.mp h
      cases h
      obtain ⟨v, hv, htagv⟩ := setRef_of_compileSetRef href
      by_cases hun : nodeOp node = "untagged".toList
      · rw [decide_eq_true hun]
        exact .untagged hun hv htagv
      · rw [decide_eq_false hun]
        exact .tagged (htag.resolve_right hun) hv htagv
    · split at h
      · next hin =>
        obtain ⟨ref, href, h⟩ := compile_bind_ok_iff.mp h
        cases h
        obtain ⟨v, hv, hc⟩ := setRef_of_compileSetRef href
        exact .inCollection hin hv hc
      · exact compileComparison_means h hgiven

/-! ### Documents -/

/-- The tree of a condition, with its strings. -/
def Cond.meaning (ses : SqlSession) (c : Cond) : Meaning := ⟨c.tree ses, c.texts ses⟩

theorem treeAll_eq_map (cs : List Cond) :
    treeAll ses cs = (cs.map (Cond.meaning ses)).map Meaning.tree := by
  induction cs with
  | nil => rfl
  | cons c cs ih =>
    show c.tree ses :: treeAll ses cs = _
    rw [ih]
    rfl

theorem textsAll_eq_map (cs : List Cond) :
    textsAll ses cs = (cs.map (Cond.meaning ses)).map Meaning.texts := by
  induction cs with
  | nil => rfl
  | cons c cs ih =>
    show c.texts ses :: textsAll ses cs = _
    rw [ih]
    rfl

theorem meaning_all (cs : List Cond) : (Cond.all cs).meaning ses =
    ⟨joined .and ((cs.map (Cond.meaning ses)).map Meaning.tree),
      (cs.map (Cond.meaning ses)).flatMap Meaning.texts⟩ := by
  rw [List.flatMap_def, ← treeAll_eq_map, ← textsAll_eq_map]
  rfl

theorem meaning_any (cs : List Cond) : (Cond.any cs).meaning ses =
    ⟨joined .or ((cs.map (Cond.meaning ses)).map Meaning.tree),
      (cs.map (Cond.meaning ses)).flatMap Meaning.texts⟩ := by
  rw [List.flatMap_def, ← treeAll_eq_map, ← textsAll_eq_map]
  rfl

/-- What the clauses mean, each with its own nodes. -/
theorem means_clauses {node : Json} {items : List Json} {cs : List Cond}
    (hlogic : nodeOp node ∈ logicalOps) (hclauses : node.at? "clauses".toList = some (.arr items))
    (hnum : ∀ n ∈ filterNodes node, NumbersGiven n)
    (h : List.Forall₂ (fun j c => (∀ n ∈ filterNodes j, NumbersGiven n) →
      Means ses j (Cond.meaning ses c)) items cs) :
    List.Forall₂ (Means ses) items (cs.map (Cond.meaning ses)) := by
  have hbelow : ∀ item ∈ items, ∀ n ∈ filterNodes item, NumbersGiven n :=
    fun item hitem n hn => hnum n (filterNodes_clause hlogic hclauses hitem hn)
  clear hclauses
  induction h with
  | nil => exact .nil
  | cons hc _ ih =>
    exact .cons (hc (hbelow _ (by simp))) (ih fun item hitem => hbelow item (List.mem_cons_of_mem _ hitem))

/-- **A document compiles to what it means**, if its numeric columns are compared with numbers. -/
theorem compileNode_means (j : Json) (c : Cond) (h : compileNode j = .ok c) :
    (∀ node ∈ filterNodes j, NumbersGiven node) → Means ses j (c.meaning ses) := by
  refine compileNode_induction (P := fun j c => (∀ n ∈ filterNodes j, NumbersGiven n) →
    Means ses j (Cond.meaning ses c)) ?_ ?_ ?_ ?_ j c h
  · intro node items cs hop hclauses hitems hcs hnum
    rw [meaning_all]
    exact .all hop hclauses (means_clauses (hop ▸ by decide) hclauses hnum hcs)
  · intro node items cs hop hclauses hitems hcs hnum
    rw [meaning_any]
    exact .any hop hclauses (means_clauses (hop ▸ by decide) hclauses hnum hcs)
  · intro node item c hop hclauses hc hnum
    exact .neg hop hclauses
      (hc fun n hn => hnum n (filterNodes_clause (hop ▸ by decide) hclauses (by simp) hn))
  · intro node l hlogic hl hnum
    exact .leaf hlogic (compileLeaf_means hl
      (compileLeaf_allowed hl hlogic (hnum node (self_mem_filterNodes node))))

theorem compileFilter_means {ast : Json} {c : Cond} (h : compileFilter ast = .ok c)
    (hnum : ∀ node ∈ filterNodes ast, NumbersGiven node) : FilterMeans ses ast (c.meaning ses) := by
  unfold compileFilter at h
  unfold FilterMeans
  split at h
  · next hempty =>
    cases h
    rw [if_pos hempty]
    rfl
  · next hempty =>
    rw [if_neg hempty]
    exact compileNode_means ast c h hnum

end Compiled

/-! ### The text -/

/-- A text reads as what a document asks for: the grammar finds its tree, the names are columns or
written by the compiler, and each of the caller's strings is one quoted literal. -/
def ReadAs (ses : SqlSession) (ast : Json) (text : Str) : Prop :=
  ∃ m, FilterMeans ses ast m ∧ parse text = some m.tree ∧
    ∃ ts, lex text = some ts ∧ (∀ w ∈ words ts, w ∈ columns ++ fixedNames) ∧ quotes ts = m.texts

/-- **What is compiled is what is read.**  On a connection whose escaping leaves no quotation mark and
no backslash open: the text of a filter that compiles, its numeric columns compared with numbers,
is read as the tree of the document, with known names and the caller's strings as its only
literals; and the text of a sort specification as its keys. -/
theorem text_faithful (ses : SqlSession) (hescape : ∀ s, Escaped (ses.escape s) = true) :
    (∀ ast c, compileFilter ast = .ok c → (∀ node ∈ filterNodes ast, NumbersGiven node) →
      ReadAs ses ast (c.sql ses)) ∧
    ∀ sort keys, compileSort sort = .ok keys → SortedBy sort keys ∧
      parseOrder (sortSql keys) = some (keys.map fun k => (k.field, k.desc)) ∧
      ∀ k ∈ keys, k.field ∈ columns := by
  refine ⟨fun ast c h hnum => ?_, fun sort keys h => ?_⟩
  · have hallowed := compileFilter_allowed h hnum
    have hlex := (Cond.scans hescape c hallowed).lex
    have hmentions : Mentions (c.items ses) (c.texts ses) := Cond.mentions c hallowed
    exact ⟨c.meaning ses, compileFilter_means h hnum, (Cond.reads c hallowed).parse hlex,
      _, hlex, hmentions.known, hmentions.quoted⟩
  · obtain ⟨hsorted, hne, hcolumns⟩ := compileSort_ok h
    exact ⟨hsorted, parseOrder_sortSql hne hcolumns, hcolumns⟩

section Session

/-- A conjunction of a numeric range, a negated comparison with a quote in it, and a cone. -/
def quotedAst : Json := .obj [("op".toList, .str "and".toList), ("clauses".toList, .arr [
  .obj [("field".toList, .str "gain".toList), ("op".toList, .str "between".toList),
    ("value".toList, .arr [.int (-1), .float false 5 2])],
  .obj [("op".toList, .str "not".toList), ("clauses".toList, .arr [
    .obj [("field".toList, .str "rig".toList), ("value".toList, .str "a' OR 1=1 --".toList)]])],
  .obj [("op".toList, .str "cone".toList), ("ra".toList, .int 10), ("dec".toList, .int 0),
    ("radius_deg".toList, .int 1)]])]

def quotedCond : Cond := .all [.leaf (.between "gain".toList (.num (.int (-1))) (.num (.float false 5 2))),
  .neg (.leaf (.compare "rig".toList "=".toList (.text "a' OR 1=1 --".toList))),
  .leaf (.cone (.int 10) (.int 0) (.int 1))]

theorem numbers_quotedAst : ∀ node ∈ filterNodes quotedAst, NumbersGiven node := by
  intro node hnode hlogic hmember field hfield hnum v hv
  have hnode' : node ∈ [quotedAst,
      .obj [("field".toList, .str "gain".toList), ("op".toList, .str "between".toList),
        ("value".toList, .arr [.int (-1), .float false 5 2])],
      .obj [("op".toList, .str "not".toList), ("clauses".toList, .arr [
        .obj [("field".toList, .str "rig".toList), ("value".toList, .str "a' OR 1=1 --".toList)]])],
      .obj [("field".toList, .str "rig".toList), ("value".toList, .str "a' OR 1=1 --".toList)],
      .obj [("op".toList, .str "cone".toList), ("ra".toList, .int 10), ("dec".toList, .int 0),
        ("radius_deg".toList, .int 1)]] := hnode
  simp only [List.mem_cons, List.not_mem_nil, or_false] at hnode'
  rcases hnode' with rfl | rfl | rfl | rfl | rfl
  · exact absurd (by decide) hlogic
  · cases hv
    rfl
  · exact absurd (by decide) hlogic
  · cases hfield
    cases hnum
  · exact absurd (by decide) hmember

theorem text_faithful_quoted :
    ReadAs equator quotedAst (quotedCond.sql equator) ∧
      parseOrder (sortSql [⟨"gain".toList, true⟩]) = some [("gain".toList, true)] :=
  ⟨(text_faithful equator escaped_equator).1 quotedAst quotedCond rfl numbers_quotedAst,
    ((text_faithful equator escaped_equator).2
      (.arr [.obj [("field".toList, .str "gain".toList), ("dir".toList, .str "DESC".toList)]])
      [⟨"gain".toList, true⟩] rfl).2.1⟩

end Session

end StarBase.Query
