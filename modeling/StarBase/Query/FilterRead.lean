import StarBase.Query.FilterText

/-!
# What a server reads in the text of a filter

* `compileNode_allowed` — **PROVED**: a filter that compiles, its numeric columns compared with
  numbers, has only columns and operators of the tables in it;
* `Cond.mentions` — **PROVED**: the names outside quotes are columns or names the compiler writes
  itself, and the quoted literals are the caller's strings, one each, in order;
* `compileSort_ok`, `parseOrder_sortSql` — **PROVED**: a sort specification that compiles has the keys
  asked for, and its text reads as them.
-/

namespace StarBase.Query

open Sql Extract Names

/-! ### The nodes of a filter -/

/-- `node.value("op", "")`. -/
def nodeOp (node : Json) : Str :=
  match node.valueStr "op".toList [] with
  | .ok op => op
  | .error _ => []

def logicalOps : List Str := ["and".toList, "or".toList, "not".toList]

def membershipOps : List Str :=
  ["cone".toList, "tagged".toList, "untagged".toList, "in_collection".toList]

-- The recursion is that of `compileNode`.
mutual

/-- The node and those below it: the clauses of each logical node. -/
def filterNodes : Json → List Json
  | .obj fs => .obj fs ::
    if nodeOp (.obj fs) ∈ logicalOps then ((memberNodes fs).lookup "clauses".toList).getD [] else []
  | j => [j]

def memberNodes : List (Str × Json) → List (Str × List Json)
  | [] => []
  | (key, v) :: rest => (key, clauseNodes v) :: memberNodes rest

def clauseNodes : Json → List Json
  | .arr items => itemNodes items
  | _ => []

def itemNodes : List Json → List Json
  | [] => []
  | j :: js => filterNodes j ++ itemNodes js

end

/-- A number, or an array of numbers. -/
def isNumbers : Json → Bool
  | .arr vs => vs.all fun v => (num? v).isSome
  | v => (num? v).isSome

/-- A comparison of a numeric column is with numbers. -/
def NumbersGiven (node : Json) : Prop :=
  nodeOp node ∉ logicalOps → nodeOp node ∉ membershipOps →
    ∀ field, node.at? "field".toList = some (.str field) → fields.lookup field = some .num →
      ∀ v, node.at? "value".toList = some v → isNumbers v = true

theorem lookup_memberNodes (fs : List (Str × Json)) (key : Str) :
    (memberNodes fs).lookup key = (fs.lookup key).map clauseNodes := by
  induction fs with
  | nil => rfl
  | cons f fs ih =>
    obtain ⟨k, v⟩ := f
    show ((k, clauseNodes v) :: memberNodes fs).lookup key = _
    rw [List.lookup_cons, List.lookup_cons, ih]
    split <;> rfl

theorem mem_itemNodes {items : List Json} {item node : Json} (hitem : item ∈ items)
    (h : node ∈ filterNodes item) : node ∈ itemNodes items := by
  induction items with
  | nil => cases hitem
  | cons j js ih =>
    show node ∈ filterNodes j ++ itemNodes js
    rcases List.mem_cons.mp hitem with rfl | hitem
    · exact List.mem_append_left _ h
    · exact List.mem_append_right _ (ih hitem)

/-- The clauses of a logical node are nodes of the filter. -/
theorem filterNodes_clause {j node item : Json} {items : List Json} (hop : nodeOp j ∈ logicalOps)
    (hitems : j.at? "clauses".toList = some (.arr items)) (hitem : item ∈ items)
    (h : node ∈ filterNodes item) : node ∈ filterNodes j := by
  cases j with
  | obj fs =>
    have hlookup : fs.lookup "clauses".toList = some (.arr items) := hitems
    show node ∈ Json.obj fs :: (if nodeOp (.obj fs) ∈ logicalOps then _ else [])
    rw [if_pos hop, lookup_memberNodes, hlookup]
    exact List.mem_cons_of_mem _ (mem_itemNodes hitem h)
  | null => cases hitems
  | bool b => cases hitems
  | int i => cases hitems
  | float b n d => cases hitems
  | str s => cases hitems
  | arr items => cases hitems

theorem self_mem_filterNodes (j : Json) : j ∈ filterNodes j := by
  cases j <;> exact List.mem_cons_self

/-! ### A comparison that compiles -/

theorem member_ok {node : Json} {key : Str} {v : Json} (h : member node key = .ok v) :
    node.at? key = some v := by
  unfold member at h
  split at h
  · next w hw =>
    cases h
    exact hw
  · cases h

theorem mem_columns {field : Str} {type : FieldType} (h : fields.lookup field = some type) :
    field ∈ columns := by
  obtain ⟨l₁, l₂, hl, -⟩ := List.lookup_eq_some_iff.mp h
  rw [columns, hl]
  simp

theorem mem_operators {op sql : Str} (h : binops.lookup op = some sql) : sql ∈ operators := by
  obtain ⟨l₁, l₂, hl, -⟩ := List.lookup_eq_some_iff.mp h
  rw [operators, hl]
  simp

/-- A literal is not a numeric string when a number was asked for and given. -/
theorem literal_given {type : FieldType} {v : Json} {lit : Lit} (h : literal type v = .ok lit)
    (hnum : type = .num → (num? v).isSome = true) : lit.Given := by
  unfold literal at h
  split at h
  · cases h
    trivial
  · next hnone =>
    rw [hnone] at hnum
    cases hnum rfl
  · cases h
  · cases h
    trivial
  · cases h
    trivial
  · cases h

theorem literals_given {type : FieldType} {vs : List Json} {lits : List Lit}
    (h : vs.mapM (literal type) = .ok lits)
    (hnum : type = .num → ∀ v ∈ vs, (num? v).isSome = true) : ∀ lit ∈ lits, lit.Given := by
  induction vs generalizing lits with
  | nil =>
    cases h
    exact fun _ hlit => by cases hlit
  | cons v vs ih =>
    rw [List.mapM_cons] at h
    obtain ⟨lit, hlit, h⟩ := compile_bind_ok_iff.mp h
    obtain ⟨rest, hrest, h⟩ := compile_bind_ok_iff.mp h
    cases h
    intro l hl
    rcases List.mem_cons.mp hl with rfl | hl
    · exact literal_given hlit fun ht => hnum ht v List.mem_cons_self
    · exact ih hrest (fun ht w hw => hnum ht w (List.mem_cons_of_mem _ hw)) l hl

theorem designations_ne_nil (s : Str) : designations s ≠ [] := by
  show (if _ then _ else _) ≠ []
  split <;> exact List.cons_ne_nil _ _

theorem compileKeyword_allowed {field : Str} {node : Json} {l : Leaf}
    (h : compileKeyword field node = .ok l) : l.Allowed := by
  unfold compileKeyword at h
  dsimp only at h
  split at h
  · cases h
  · obtain ⟨op, -, h⟩ := compile_bind_ok_iff.mp h
    split at h
    · cases h
      trivial
    · split at h
      · cases h
      · cases h
      · next sql v hsql hv =>
        split at h
        · cases h
          exact ⟨mem_operators hsql, trivial⟩
        · obtain ⟨lit, hlit, h⟩ := compile_bind_ok_iff.mp h
          cases h
          exact ⟨mem_operators hsql, literal_given hlit (by rintro ⟨⟩)⟩

theorem compileOperator_allowed {field op : Str} {type : FieldType} {node : Json} {l : Leaf}
    (h : compileOperator field type op node = .ok l) (hf : field ∈ columns)
    (hnum : type = .num → ∀ v, node.at? "value".toList = some v → isNumbers v = true) :
    l.Allowed := by
  have harr : ∀ {vs}, type = .num → member node "value".toList = .ok (.arr vs) →
      ∀ v ∈ vs, (num? v).isSome = true := by
    intro vs ht hv
    exact List.all_eq_true.mp (hnum ht _ (member_ok hv))
  unfold compileOperator at h
  split at h
  · obtain ⟨v, hv, h⟩ := compile_bind_ok_iff.mp h
    split at h
    · next x xs =>
      obtain ⟨vs, hvs, h⟩ := compile_bind_ok_iff.mp h
      cases h
      refine ⟨hf, ?_, literals_given hvs fun ht => harr ht hv⟩
      rintro rfl
      rw [List.mapM_cons] at hvs
      obtain ⟨y, -, hvs⟩ := compile_bind_ok_iff.mp hvs
      obtain ⟨ys, -, hvs⟩ := compile_bind_ok_iff.mp hvs
      cases hvs
    · cases h
  · split at h
    · obtain ⟨v, hv, h⟩ := compile_bind_ok_iff.mp h
      split at h
      · next lo hi =>
        obtain ⟨l', hlo, h⟩ := compile_bind_ok_iff.mp h
        obtain ⟨h', hhi, h⟩ := compile_bind_ok_iff.mp h
        cases h
        exact ⟨hf, literal_given hlo fun ht => harr ht hv lo (by simp),
          literal_given hhi fun ht => harr ht hv hi (by simp)⟩
      · cases h
    · split at h
      · cases h
      · cases h
      · next sql v hsql hv =>
        obtain ⟨lit, hlit, h⟩ := compile_bind_ok_iff.mp h
        cases h
        refine ⟨hf, mem_operators hsql, literal_given hlit fun ht => ?_⟩
        have hv' := hnum ht v hv
        cases v with
        | arr vs =>
          -- an array is no literal
          rw [ht] at hlit
          cases hlit
        | null => exact hv'
        | bool b => exact hv'
        | int i => exact hv'
        | float b n d => exact hv'
        | str s => exact hv'
        | obj fs => exact hv'

theorem compileComparison_allowed {node : Json} {l : Leaf} (h : compileComparison node = .ok l)
    (hnum : ∀ field, node.at? "field".toList = some (.str field) → fields.lookup field = some .num →
      ∀ v, node.at? "value".toList = some v → isNumbers v = true) : l.Allowed := by
  obtain ⟨fieldJ, hfieldJ, h⟩ := compile_bind_ok_iff.mp h
  obtain ⟨field, hfield, h⟩ := compile_bind_ok_iff.mp h
  have hat : node.at? "field".toList = some (.str field) := by
    unfold requireString at hfield
    split at hfield
    · cases hfield
      exact member_ok hfieldJ
    · cases hfield
  split at h
  · exact compileKeyword_allowed h
  · split at h
    · cases h
    · next type htype =>
      obtain ⟨op, -, h⟩ := compile_bind_ok_iff.mp h
      have hf := mem_columns htype
      split at h
      · cases h
        exact hf
      · split at h
        · cases h
          exact hf
        · split at h
          · next names hnames =>
            cases h
            unfold objectNames at hnames
            split at hnames
            · split at hnames
              · cases hnames
                exact designations_ne_nil _
              · cases hnames
            · cases hnames
          · exact compileOperator_allowed h hf fun ht => hnum field hat (ht ▸ htype)

/-! ### A filter that compiles -/

theorem inOrder_forall₂ {α : Type} {rs : List (Compile α)} {as : List α} (h : inOrder rs = .ok as) :
    List.Forall₂ (fun r a => r = .ok a) rs as := by
  induction rs generalizing as with
  | nil =>
    cases h
    exact .nil
  | cons r rs ih =>
    obtain ⟨a, hr, h⟩ := compile_bind_ok_iff.mp h
    obtain ⟨bs, hrs, h⟩ := compile_bind_ok_iff.mp h
    cases h
    exact .cons hr (ih hrs)

/-- A node that is no logical one, by its operator. -/
def compileLeaf (node : Json) : Compile Leaf :=
  if nodeOp node = "cone".toList then compileCone node
  else if nodeOp node = "tagged".toList ∨ nodeOp node = "untagged".toList then
    compileTagged node (decide (nodeOp node = "untagged".toList))
  else if nodeOp node = "in_collection".toList then compileInCollection node
  else compileComparison node

theorem valueStr_obj {fs : List (Str × Json)} {key d : Str} {v : Json}
    (h : fs.lookup key = some v) : (Json.obj fs).valueStr key d = v.getStr := by
  simp only [Json.valueStr, Json.value, h]

theorem valueStr_absent {fs : List (Str × Json)} {key d : Str} (h : fs.lookup key = none) :
    (Json.obj fs).valueStr key d = .ok d := by
  simp only [Json.valueStr, Json.value, h]

theorem nodeOp_eq {node : Json} {op : Str} (h : node.valueStr "op".toList [] = .ok op) :
    nodeOp node = op := by
  unfold nodeOp
  rw [h]

theorem compileObject_leaf {node : Json} {clauses : List (Compile Cond)} {c : Cond}
    (hlogic : nodeOp node ∉ logicalOps) (h : compileObject node clauses = .ok c) :
    ∃ l, c = .leaf l ∧ compileLeaf node = .ok l := by
  have hand : nodeOp node ≠ "and".toList := fun he => hlogic (he ▸ by decide)
  have hor : nodeOp node ≠ "or".toList := fun he => hlogic (he ▸ by decide)
  have hnot : nodeOp node ≠ "not".toList := fun he => hlogic (he ▸ by decide)
  obtain ⟨op, hop, h⟩ := compile_bind_ok_iff.mp h
  obtain rfl : nodeOp node = op := nodeOp_eq (liftJson_eq_ok_iff.mp hop)
  rw [if_neg (not_or.mpr ⟨hand, hor⟩), if_neg hnot] at h
  unfold compileLeaf
  split at h
  · next hcone =>
    obtain ⟨l, hl, rfl⟩ := compile_map_ok h
    exact ⟨l, rfl, by rw [if_pos hcone, hl]⟩
  · next hcone =>
    rw [if_neg hcone]
    split at h
    · next htag =>
      obtain ⟨l, hl, rfl⟩ := compile_map_ok h
      exact ⟨l, rfl, by rw [if_pos htag, hl]⟩
    · next htag =>
      rw [if_neg htag]
      split at h
      · next hin =>
        obtain ⟨l, hl, rfl⟩ := compile_map_ok h
        exact ⟨l, rfl, by rw [if_pos hin, hl]⟩
      · next hin =>
        obtain ⟨l, hl, rfl⟩ := compile_map_ok h
        exact ⟨l, rfl, by rw [if_neg hin, hl]⟩

/-- A logical node. -/
theorem compileObject_logical {node : Json} {clauses : List (Compile Cond)} {c : Cond}
    (hlogic : nodeOp node ∈ logicalOps) (h : compileObject node clauses = .ok c) :
    ∃ x xs, node.at? "clauses".toList = some (.arr (x :: xs)) ∧
      ((∃ cs, inOrder clauses = .ok cs ∧ (nodeOp node = "and".toList ∧ c = .all cs ∨
          nodeOp node = "or".toList ∧ c = .any cs)) ∨
        nodeOp node = "not".toList ∧ xs = [] ∧ ∃ r c', clauses = [r] ∧ r = .ok c' ∧ c = .neg c') := by
  obtain ⟨op, hop, h⟩ := compile_bind_ok_iff.mp h
  obtain rfl : nodeOp node = op := nodeOp_eq (liftJson_eq_ok_iff.mp hop)
  split at h
  · next hjoin =>
    obtain ⟨v, hv, h⟩ := compile_bind_ok_iff.mp h
    split at h
    · next x xs =>
      obtain ⟨cs, hcs, h⟩ := compile_bind_ok_iff.mp h
      refine ⟨x, xs, member_ok hv, Or.inl ⟨cs, hcs, ?_⟩⟩
      cases h
      split
      · next hand => exact Or.inl ⟨hand, rfl⟩
      · next hand => exact Or.inr ⟨hjoin.resolve_left hand, rfl⟩
    · cases h
  · next hjoin =>
    have hnot : nodeOp node = "not".toList := by
      have hmem : nodeOp node ∈ ["and".toList, "or".toList, "not".toList] := hlogic
      simp only [List.mem_cons, List.not_mem_nil, or_false] at hmem
      rcases hmem with ha | ho | hn
      · exact absurd (Or.inl ha) hjoin
      · exact absurd (Or.inr ho) hjoin
      · exact hn
    rw [if_pos hnot] at h
    obtain ⟨v, hv, h⟩ := compile_bind_ok_iff.mp h
    split at h
    · next x r _ _ =>
      obtain ⟨c', hc', h⟩ := compile_bind_ok_iff.mp h
      cases h
      exact ⟨x, [], member_ok hv, Or.inr ⟨hnot, rfl, r, c', rfl, hc', rfl⟩⟩
    · cases h

/-- What each clause compiles to, with a property of the pair. -/
theorem inOrder_clauses {P : Json → Cond → Prop} {items : List Json} {cs : List Cond}
    (h : inOrder (items.map compileNode) = .ok cs)
    (hP : ∀ item ∈ items, ∀ c, compileNode item = .ok c → P item c) : List.Forall₂ P items cs := by
  have hall := inOrder_forall₂ h
  rw [List.forall₂_map_left_iff] at hall
  clear h
  induction hall with
  | nil => exact .nil
  | cons hc _ ih =>
    exact .cons (hP _ (by simp) _ hc) (ih fun item hitem => hP item (List.mem_cons_of_mem _ hitem))

/-- **What a filter compiles to, node by node**: a property of what compiles is proved for a leaf, and
for each logical node from its clauses. -/
theorem compileNode_induction {P : Json → Cond → Prop}
    (hall : ∀ node items cs, nodeOp node = "and".toList →
      node.at? "clauses".toList = some (.arr items) → items ≠ [] → List.Forall₂ P items cs →
      P node (.all cs))
    (hany : ∀ node items cs, nodeOp node = "or".toList →
      node.at? "clauses".toList = some (.arr items) → items ≠ [] → List.Forall₂ P items cs →
      P node (.any cs))
    (hneg : ∀ node item c, nodeOp node = "not".toList →
      node.at? "clauses".toList = some (.arr [item]) → P item c → P node (.neg c))
    (hleaf : ∀ node l, nodeOp node ∉ logicalOps → compileLeaf node = .ok l → P node (.leaf l))
    (j : Json) : ∀ c, compileNode j = .ok c → P j c := by
  induction hn : sizeOf j using Nat.strong_induction_on generalizing j with
  | _ n ih =>
    subst hn
    intro c hc
    cases j with
    | obj fs =>
      by_cases hlogic : nodeOp (.obj fs) ∈ logicalOps
      · obtain ⟨x, xs, hclauses, hresult⟩ := compileObject_logical hlogic hc
        have hlookup : fs.lookup "clauses".toList = some (.arr (x :: xs)) := hclauses
        have hitems : ((compileMembers fs).lookup "clauses".toList).getD [] =
            (x :: xs).map compileNode := by
          rw [lookup_compileMembers, hlookup]
          exact compileItems_eq (x :: xs)
        rw [hitems] at hresult
        have hbelow : ∀ item ∈ x :: xs, ∀ c, compileNode item = .ok c → P item c := by
          intro item hitem
          have hlt : sizeOf item < sizeOf (Json.obj fs) := by
            have h₁ := sizeOf_lt_of_lookup hlookup
            have h₂ := List.sizeOf_lt_of_mem hitem
            simp at h₁ h₂ ⊢
            omega
          exact ih _ hlt item rfl
        rcases hresult with ⟨cs, hcs, ⟨hop, rfl⟩ | ⟨hop, rfl⟩⟩ | ⟨hop, rfl, r, c', hr, hrc, rfl⟩
        · exact hall _ _ _ hop hclauses (List.cons_ne_nil _ _) (inOrder_clauses hcs hbelow)
        · exact hany _ _ _ hop hclauses (List.cons_ne_nil _ _) (inOrder_clauses hcs hbelow)
        · obtain ⟨hx, -⟩ := List.cons.inj hr
          exact hneg _ _ _ hop hclauses (hbelow x (by simp) c' (hx.trans hrc))
      · obtain ⟨l, rfl, hl⟩ := compileObject_leaf hlogic hc
        exact hleaf _ l hlogic hl
    | null => cases hc
    | bool b => cases hc
    | int i => cases hc
    | float b n d => cases hc
    | str s => cases hc
    | arr items => cases hc

theorem not_membership {node : Json} (hcone : nodeOp node ≠ "cone".toList)
    (htag : ¬(nodeOp node = "tagged".toList ∨ nodeOp node = "untagged".toList))
    (hin : nodeOp node ≠ "in_collection".toList) : nodeOp node ∉ membershipOps := by
  show nodeOp node ∉ ["cone".toList, "tagged".toList, "untagged".toList, "in_collection".toList]
  simp only [List.mem_cons, List.not_mem_nil, or_false, not_or]
  exact ⟨hcone, (not_or.mp htag).1, (not_or.mp htag).2, hin⟩

theorem compileLeaf_allowed {node : Json} {l : Leaf} (h : compileLeaf node = .ok l)
    (hlogic : nodeOp node ∉ logicalOps) (hnum : NumbersGiven node) : l.Allowed := by
  unfold compileLeaf at h
  split at h
  · unfold compileCone at h
    split at h
    · obtain ⟨ra, -, h⟩ := compile_bind_ok_iff.mp h
      obtain ⟨dec, -, h⟩ := compile_bind_ok_iff.mp h
      obtain ⟨r, -, h⟩ := compile_bind_ok_iff.mp h
      split at h
      · cases h
      · cases h
        trivial
    · cases h
  · next hcone =>
    split at h
    · obtain ⟨ref, -, h⟩ := compile_bind_ok_iff.mp h
      cases h
      trivial
    · next htag =>
      split at h
      · obtain ⟨ref, -, h⟩ := compile_bind_ok_iff.mp h
        cases h
        trivial
      · next hin =>
        exact compileComparison_allowed h (hnum hlogic (not_membership hcone htag hin))

/-- The nodes below each clause. -/
theorem holds_clauses {node : Json} {items : List Json} {cs : List Cond}
    (hlogic : nodeOp node ∈ logicalOps) (hclauses : node.at? "clauses".toList = some (.arr items))
    (hnum : ∀ n ∈ filterNodes node, NumbersGiven n)
    (h : List.Forall₂ (fun j c => (∀ n ∈ filterNodes j, NumbersGiven n) → c.Holds Leaf.Allowed)
      items cs) : AllHold Leaf.Allowed cs := by
  have hbelow : ∀ item ∈ items, ∀ n ∈ filterNodes item, NumbersGiven n :=
    fun item hitem n hn => hnum n (filterNodes_clause hlogic hclauses hitem hn)
  clear hclauses
  induction h with
  | nil => trivial
  | cons hc _ ih =>
    exact ⟨hc (hbelow _ (by simp)), ih fun item hitem => hbelow item (List.mem_cons_of_mem _ hitem)⟩

/-- **A filter that compiles has only what is let through**, if its numeric columns are compared with
numbers. -/
theorem compileNode_allowed (j : Json) (c : Cond) (h : compileNode j = .ok c) :
    (∀ node ∈ filterNodes j, NumbersGiven node) → c.Holds Leaf.Allowed := by
  have hne : ∀ {P : Json → Cond → Prop} {items : List Json} {cs : List Cond}, items ≠ [] →
      List.Forall₂ P items cs → cs ≠ [] := by
    rintro P items cs hitems hall rfl
    cases hall
    exact hitems rfl
  refine compileNode_induction (P := fun j c => (∀ n ∈ filterNodes j, NumbersGiven n) →
    c.Holds Leaf.Allowed) ?_ ?_ ?_ ?_ j c h
  · intro node items cs hop hclauses hitems hcs hnum
    exact ⟨hne hitems hcs, holds_clauses (hop ▸ by decide) hclauses hnum hcs⟩
  · intro node items cs hop hclauses hitems hcs hnum
    exact ⟨hne hitems hcs, holds_clauses (hop ▸ by decide) hclauses hnum hcs⟩
  · intro node item c hop hclauses hc hnum
    exact hc fun n hn => hnum n (filterNodes_clause (hop ▸ by decide) hclauses (by simp) hn)
  · intro node l hlogic hl hnum
    exact compileLeaf_allowed hl hlogic (hnum node (self_mem_filterNodes node))

theorem compileFilter_allowed {ast : Json} {c : Cond} (h : compileFilter ast = .ok c)
    (hnum : ∀ node ∈ filterNodes ast, NumbersGiven node) : c.Holds Leaf.Allowed := by
  unfold compileFilter at h
  split at h
  · cases h
    trivial
  · exact compileNode_allowed ast c h hnum

/-! ### Names and quoted texts -/

/-- The names the compiler writes itself: keywords, functions, tables, their aliases and columns. -/
def fixedNames : List Str :=
  ["AND", "AS", "ASIN", "BETWEEN", "CAST", "COS", "DECIMAL", "DEGREES", "EXISTS", "FROM", "IN", "IS",
    "JOIN", "LIKE", "NOT", "NULL", "ON", "OR", "POWER", "RADIANS", "SELECT", "SIN", "SQRT", "WHERE",
    "v_frames", "frame_keywords", "frame_tags", "tags", "collection_frames", "collections",
    "k", "ft", "t", "cf", "c", "frame_id", "keyword", "value", "tag_id", "collection_id", "id",
    "name"].map String.toList

/-- The items have only known names outside quotes, and quote exactly these texts, in order. -/
structure Mentions (is : List Item) (texts : List Str) : Prop where
  known : ∀ w ∈ words (flattenAll is), w ∈ columns ++ fixedNames
  quoted : quotes (flattenAll is) = texts

namespace Mentions

variable {is js : List Item} {as bs : List Str}

theorem nil : Mentions [] [] := ⟨List.forall_mem_nil _, rfl⟩

theorem append (h : Mentions is as) (h' : Mentions js bs) : Mentions (is ++ js) (as ++ bs) where
  known w hw := by
    rw [flattenAll_append, words_append] at hw
    rcases List.mem_append.mp hw with hw | hw
    · exact h.known w hw
    · exact h'.known w hw
  quoted := by rw [flattenAll_append, quotes_append, h.quoted, h'.quoted]

/-- An item without quotes in front. -/
theorem cons {i : Item} (hi : Mentions [i] []) (h : Mentions is as) : Mentions (i :: is) as :=
  hi.append h

theorem append_silent (h : Mentions is as) (h' : Mentions js []) : Mentions (is ++ js) as := by
  have hall := h.append h'
  rwa [List.append_nil] at hall

theorem silent_append (h : Mentions is []) (h' : Mentions js as) : Mentions (is ++ js) as :=
  h.append h'

theorem group (h : Mentions is as) : Mentions [.group is] as where
  known w hw := by
    rw [words_group] at hw
    exact h.known w hw
  quoted := by rw [quotes_group, h.quoted]

theorem join {sep : Item} (hsep : Mentions [sep] []) {iss : List (List Item)}
    {texts : List (List Str)} (h : List.Forall₂ Mentions iss texts) :
    Mentions (joinItems sep iss) texts.flatten := by
  induction h with
  | nil => exact nil
  | cons hfirst hrest ih =>
    cases hrest with
    | nil =>
      show Mentions _ (_ ++ [])
      rw [List.append_nil]
      exact hfirst
    | cons hnext hrest => exact hfirst.append (cons hsep ih)

/-- A piece of each of the values. -/
theorem join_map {α : Type} {sep : Item} (hsep : Mentions [sep] []) {f : α → List Item}
    {g : α → List Str} {xs : List α} (h : ∀ x ∈ xs, Mentions (f x) (g x)) :
    Mentions (joinItems sep (xs.map f)) (xs.flatMap g) := by
  refine join hsep ?_
  rw [List.forall₂_map_left_iff, List.forall₂_map_right_iff]
  exact List.forall₂_same.mpr h

end Mentions

theorem mentions_column {f : Str} (h : f ∈ columns) : Mentions [wordItem f] [] where
  known w hw := by
    rw [List.mem_singleton.mp hw]
    exact List.mem_append_left _ h
  quoted := rfl

theorem mentions_text (s : Str) : Mentions [textItem s] [s] := ⟨List.forall_mem_nil _, rfl⟩

theorem mentions_sym (s : Str) : Mentions [.atom (.sym s)] [] := ⟨List.forall_mem_nil _, rfl⟩

theorem mentions_numeral (x : Numeral) : Mentions x.items [] := by
  have hdigits : Mentions [.atom (.number x.digits)] [] := ⟨List.forall_mem_nil _, rfl⟩
  refine Mentions.silent_append ?_ hdigits
  split
  · exact mentions_sym _
  · exact .nil

/-- The fixed pieces of text. -/
def phrases : List String :=
  ["1=1", "IS NULL", "IS NOT NULL", "ra_deg IS NOT NULL", "dec_deg IS NOT NULL", "object_canonical =",
    "object_canonical LIKE", "k.value", "CAST(k.value AS DECIMAL(20,6))",
    "SELECT 1 FROM frame_keywords k WHERE k.frame_id = v_frames.frame_id AND k.keyword =",
    "SELECT 1 FROM frame_tags ft JOIN tags t ON t.id = ft.tag_id WHERE ft.frame_id = v_frames.frame_id AND",
    "SELECT 1 FROM collection_frames cf JOIN collections c ON c.id = cf.collection_id WHERE cf.frame_id = v_frames.frame_id AND",
    "ft.tag_id", "t.name", "cf.collection_id", "c.name", "/2", ",2", "2*ASIN",
    "*COS(RADIANS(dec_deg))*POWER", "<="]

/-- The words the compiler puts between them. -/
def joiners : List String :=
  ["AND", "OR", "NOT", "BETWEEN", "EXISTS", "IN", "DEGREES", "SQRT", "POWER", "SIN", "RADIANS", "COS"]

/-- A piece of text with known names and no quotes. -/
def Silent (is : List Item) : Prop :=
  (∀ w ∈ words (flattenAll is), w ∈ columns ++ fixedNames) ∧ quotes (flattenAll is) = []

instance (is : List Item) : Decidable (Silent is) :=
  inferInstanceAs (Decidable ((∀ w ∈ words (flattenAll is), w ∈ columns ++ fixedNames) ∧
    quotes (flattenAll is) = []))

theorem silent_fixed : (∀ s ∈ phrases, Silent (phrase s)) ∧ (∀ kw ∈ joiners, Silent [kwItem kw]) ∧
    ∀ o ∈ operators, Silent [opItem o] := by
  unfold phrases
  simp only [List.forall_mem_cons]
  repeat rw [phrase_ofList]
  decide +kernel

theorem mentions_phrase {s : String} (h : s ∈ phrases) : Mentions (phrase s) [] :=
  ⟨(silent_fixed.1 s h).1, (silent_fixed.1 s h).2⟩

theorem mentions_joiner {k : String} (h : k ∈ joiners) : Mentions [kwItem k] [] :=
  ⟨(silent_fixed.2.1 k h).1, (silent_fixed.2.1 k h).2⟩

theorem mentions_operator (o : Str) (h : o ∈ operators) : Mentions [opItem o] [] :=
  ⟨(silent_fixed.2.2 o h).1, (silent_fixed.2.2 o h).2⟩

theorem mentions_and : Mentions [kwItem "AND"] [] := mentions_joiner (by simp [joiners])

theorem mentions_or : Mentions [kwItem "OR"] [] := mentions_joiner (by simp [joiners])

theorem mentions_not : Mentions [kwItem "NOT"] [] := mentions_joiner (by simp [joiners])

section Mentioning

variable (ses : SqlSession)

/-- The caller's text of a literal, escaped. -/
def Lit.texts : Lit → List Str
  | .text s => [ses.escape s]
  | .quotedNum n => [ses.escape n.fixed.text]
  | _ => []

def SetRef.texts : SetRef → List Str
  | .id _ => []
  | .name s => [ses.escape s]

def designationText (sqlLike : Bool) (d : Str) : Str :=
  if sqlLike then '%' :: (ses.escape d ++ ['%']) else ses.escape d

/-- The caller's texts of a leaf, escaped: one for each string, in order. -/
def Leaf.texts : Leaf → List Str
  | .isNull _ _ => []
  | .compare _ _ v => v.texts ses
  | .isIn _ vs => vs.flatMap (Lit.texts ses)
  | .between _ lo hi => lo.texts ses ++ hi.texts ses
  | .object sqlLike names => names.map (designationText ses sqlLike)
  | .keywordPresent kw _ => [ses.escape kw]
  | .keyword kw _ v => ses.escape kw :: v.texts ses
  | .cone _ _ _ => []
  | .tagged tag _ => tag.texts ses
  | .inCollection collection => collection.texts ses

mutual

/-- The caller's texts of a filter. -/
def Cond.texts : Cond → List Str
  | .always => []
  | .leaf l => l.texts ses
  | .all cs => (textsAll cs).flatten
  | .any cs => (textsAll cs).flatten
  | .neg c => c.texts

def textsAll : List Cond → List (List Str)
  | [] => []
  | c :: cs => c.texts :: textsAll cs

end

end Mentioning

section Mentioned

variable {ses : SqlSession}

theorem mentions_lit {v : Lit} (h : v.Given) : Mentions (v.items ses) (v.texts ses) := by
  cases v with
  | num n => exact mentions_numeral _
  | numText s => exact h.elim
  | text s => exact mentions_text _
  | quotedNum n => exact mentions_text _

theorem mentions_between {column : Str} (hc : column ∈ columns) {lo hi : List Item} {as bs : List Str}
    (hlo : Mentions lo as) (hhi : Mentions hi bs) :
    Mentions (betweenItems column lo hi) (as ++ bs) := by
  have hbetween : Mentions [kwItem "BETWEEN"] [] := mentions_joiner (by simp [joiners])
  exact (mentions_column hc).cons (hbetween.cons (hlo.append (mentions_and.cons hhi)))

theorem mentions_designation (sqlLike : Bool) (d : Str) :
    Mentions (designationItems ses sqlLike d) [designationText ses sqlLike d] := by
  cases sqlLike with
  | false =>
    have hname : Mentions (phrase "object_canonical =") [] := mentions_phrase (by simp [phrases])
    exact hname.silent_append (mentions_text _)
  | true =>
    have hname : Mentions (phrase "object_canonical LIKE") [] := mentions_phrase (by simp [phrases])
    exact hname.silent_append (mentions_text _)

theorem mentions_exists {is : List Item} {as : List Str} (h : Mentions is as) :
    Mentions [kwItem "EXISTS", .group is] as := by
  have hexists : Mentions [kwItem "EXISTS"] [] := mentions_joiner (by simp [joiners])
  exact hexists.cons h.group

theorem mentions_keyword (kw : Str) {cond : List Item} {as : List Str} (h : Mentions cond as) :
    Mentions (keywordItems ses kw cond) (ses.escape kw :: as) := by
  have hfront : Mentions (phrase
      "SELECT 1 FROM frame_keywords k WHERE k.frame_id = v_frames.frame_id AND k.keyword =") [] := mentions_phrase (by simp [phrases])
  exact mentions_exists (hfront.silent_append ((mentions_text _).append h))

theorem mentions_keywordCond {sqlOp : Str} {v : Lit} (hop : sqlOp ∈ operators) (hv : v.Given) :
    Mentions (keywordCondItems ses sqlOp v) (v.texts ses) := by
  have hvalue : Mentions (phrase "k.value") [] := mentions_phrase (by simp [phrases])
  cases v with
  | num n =>
    have hcast : Mentions (phrase "CAST(k.value AS DECIMAL(20,6))") [] := mentions_phrase (by simp [phrases])
    exact hcast.silent_append ((mentions_operator sqlOp hop).cons (mentions_numeral _))
  | numText s => exact hv.elim
  | text s => exact hvalue.silent_append ((mentions_operator sqlOp hop).cons (mentions_text _))
  | quotedNum n => exact hvalue.silent_append ((mentions_operator sqlOp hop).cons (mentions_text _))

theorem mentions_negated {negated : Bool} {is : List Item} {as : List Str} (h : Mentions is as) :
    Mentions (negatedItems negated is) as := by
  cases negated with
  | false => exact h
  | true => exact mentions_not.cons h

theorem mentions_setRef (ref : SetRef) {idColumn nameColumn : String}
    (hid : Mentions (phrase idColumn) []) (hname : Mentions (phrase nameColumn) []) :
    Mentions (ref.items ses idColumn nameColumn) (ref.texts ses) := by
  cases ref with
  | id n => exact hid.silent_append ((mentions_sym _).cons (mentions_numeral _))
  | name s => exact hname.silent_append ((mentions_sym _).cons (mentions_text _))

theorem mentions_tagged (tag : SetRef) : Mentions (taggedItems ses tag) (tag.texts ses) := by
  have hfront : Mentions (phrase
      "SELECT 1 FROM frame_tags ft JOIN tags t ON t.id = ft.tag_id WHERE ft.frame_id = v_frames.frame_id AND")
      [] := mentions_phrase (by simp [phrases])
  exact mentions_exists (hfront.silent_append (mentions_setRef tag
    (mentions_phrase (by simp [phrases])) (mentions_phrase (by simp [phrases]))))

theorem mentions_inCollection (collection : SetRef) :
    Mentions (inCollectionItems ses collection) (collection.texts ses) := by
  have hfront : Mentions (phrase
      "SELECT 1 FROM collection_frames cf JOIN collections c ON c.id = cf.collection_id WHERE cf.frame_id = v_frames.frame_id AND")
      [] := mentions_phrase (by simp [phrases])
  exact mentions_exists (hfront.silent_append (mentions_setRef collection
    (mentions_phrase (by simp [phrases])) (mentions_phrase (by simp [phrases]))))

theorem mentions_box (ra dec r : ℚ) : ∀ is ∈ boxItems ses ra dec r, Mentions is [] := by
  have hdec := mentions_between (show "dec_deg".toList ∈ columns by decide)
    (mentions_numeral (fixedNumeral (Rounding.binary64 (dec - r))))
    (mentions_numeral (fixedNumeral (Rounding.binary64 (dec + r))))
  have hra := mentions_between (show "ra_deg".toList ∈ columns by decide)
    (mentions_numeral (fixedNumeral (Rounding.binary64 (ra - raHalf ses dec r))))
    (mentions_numeral (fixedNumeral (Rounding.binary64 (ra + raHalf ses dec r))))
  intro is his
  rcases List.mem_cons.mp his with rfl | his
  · exact hdec
  · split at his
    · rw [List.mem_singleton.mp his]
      exact hra
    · cases his

theorem mentions_haversine (ra dec r : Numeral) : Mentions (haversineItems ra dec r) [] := by
  -- SIN(RADIANS(column-x)/2),2
  have hsine : ∀ {column : Str} (x : Numeral), column ∈ columns → Mentions [.group (kwItem "SIN" ::
      .group (kwItem "RADIANS" :: .group (wordItem column :: .atom (.sym ['-']) ::
        x.items) :: phrase "/2") :: phrase ",2")] [] := by
    intro column x hc
    have harg : Mentions (wordItem column :: .atom (.sym ['-']) :: x.items) [] :=
      (mentions_column hc).cons ((mentions_sym _).cons (mentions_numeral _))
    have hrad := (mentions_joiner (k := "RADIANS") (by simp [joiners])).cons (harg.group.cons (mentions_phrase (s := "/2") (by simp [phrases])))
    exact ((mentions_joiner (k := "SIN") (by simp [joiners])).cons (hrad.group.cons (mentions_phrase (s := ",2") (by simp [phrases])))).group
  have hcos : Mentions (kwItem "COS" :: .group (kwItem "RADIANS" ::
      [.group dec.items]) :: (phrase "*COS(RADIANS(dec_deg))*POWER" ++
        [.group (kwItem "SIN" :: .group (kwItem "RADIANS" :: .group (wordItem "ra_deg".toList ::
          .atom (.sym ['-']) :: ra.items) :: phrase "/2") :: phrase ",2")])) [] :=
    (mentions_joiner (k := "COS") (by simp [joiners])).cons
      (((mentions_joiner (k := "RADIANS") (by simp [joiners])).cons (mentions_numeral _).group).group.cons
        ((mentions_phrase (by simp [phrases])).append_silent (hsine ra (by decide))))
  have hroot := ((mentions_joiner (k := "SQRT") (by simp [joiners])).cons ((mentions_joiner (k := "POWER") (by simp [joiners])).cons
    ((hsine dec (show "dec_deg".toList ∈ columns by decide)).cons
      ((mentions_sym ['+']).cons hcos))).group).group
  exact (mentions_joiner (k := "DEGREES") (by simp [joiners])).cons (((mentions_phrase (s := "2*ASIN") (by simp [phrases])).append_silent
    hroot).group.cons ((mentions_phrase (s := "<=") (by simp [phrases])).append_silent (mentions_numeral _)))

theorem mentions_cone (ra dec r : JsonNum) :
    Mentions [.group (joinItems (kwItem "AND") (coneItems ses ra dec r))] [] := by
  have hra : Mentions (phrase "ra_deg IS NOT NULL") [] := mentions_phrase (by simp [phrases])
  have hdec : Mentions (phrase "dec_deg IS NOT NULL") [] := mentions_phrase (by simp [phrases])
  have hbox : Mentions (joinItems (kwItem "AND") (boxItems ses ra.double dec.double r.double)) [] := by
    have hall : Mentions (joinItems (kwItem "AND") ((boxItems ses ra.double dec.double r.double).map id))
        ((boxItems ses ra.double dec.double r.double).flatMap fun _ => []) :=
      Mentions.join_map mentions_and (mentions_box _ _ _)
    rwa [List.map_id, List.flatMap_eq_nil_iff.mpr fun _ _ => rfl] at hall
  exact (Mentions.join mentions_and (.cons hra (.cons hdec (.cons hbox.group
    (.cons (mentions_haversine _ _ _) .nil))))).group

/-- **The names and the quoted texts of a leaf.** -/
theorem Leaf.mentions {l : Leaf} (h : l.Allowed) : Mentions (l.items ses) (l.texts ses) := by
  cases l with
  | isNull field negated =>
    have hnull : ∀ b : Bool, Mentions (phrase (if b then "IS NOT NULL" else "IS NULL")) [] := by
      rintro (_ | _)
      · exact mentions_phrase (by simp [phrases])
      · exact mentions_phrase (by simp [phrases])
    exact (mentions_column h).cons (hnull negated)
  | compare field sqlOp v =>
    exact (mentions_column h.1).cons ((mentions_operator sqlOp h.2.1).cons (mentions_lit h.2.2))
  | isIn field vs =>
    have hin : Mentions [kwItem "IN"] [] := mentions_joiner (by simp [joiners])
    have hvs : Mentions _ (vs.flatMap (Lit.texts ses)) :=
      Mentions.join_map (mentions_sym [',']) fun v hv => mentions_lit (h.2.2 v hv)
    exact (mentions_column h.1).cons (hin.cons hvs.group)
  | between field lo hi => exact mentions_between h.1 (mentions_lit h.2.1) (mentions_lit h.2.2)
  | object sqlLike names =>
    have hnames : Mentions _ (names.flatMap fun d => [designationText ses sqlLike d]) :=
      Mentions.join_map mentions_or fun d _ => mentions_designation sqlLike d
    rw [← List.map_eq_flatMap] at hnames
    exact hnames.group
  | keywordPresent kw negated => exact mentions_negated (mentions_keyword kw .nil)
  | keyword kw sqlOp v =>
    exact mentions_keyword kw (mentions_and.cons (mentions_keywordCond h.1 h.2))
  | cone ra dec radius => exact mentions_cone _ _ _
  | tagged tag negated => exact mentions_negated (mentions_tagged tag)
  | inCollection collection => exact mentions_inCollection collection

theorem mentions_always : Mentions (phrase "1=1") [] := mentions_phrase (by simp [phrases])

mutual

/-- **The names and the quoted texts of a filter.** -/
theorem Cond.mentions : ∀ c : Cond, c.Holds Leaf.Allowed → Mentions (c.items ses) (c.texts ses)
  | .always, _ => mentions_always
  | .leaf _, h => Leaf.mentions h
  | .all cs, h => (Mentions.join mentions_and (mentionsAll cs h.2)).group
  | .any cs, h => (Mentions.join mentions_or (mentionsAll cs h.2)).group
  | .neg c, h => mentions_not.cons (Cond.mentions c h).group

theorem mentionsAll : ∀ cs : List Cond, AllHold Leaf.Allowed cs →
    List.Forall₂ Mentions (itemsAll ses cs) (textsAll ses cs)
  | [], _ => .nil
  | c :: cs, h => .cons (Cond.mentions c h.1) (mentionsAll cs h.2)

end

end Mentioned

/-! ### Sorting -/

def SortKey.items (k : SortKey) : List Item := [wordItem k.field, kwItem (if k.desc then "DESC" else "ASC")]

theorem SortKey.scans {k : SortKey} (h : k.field ∈ columns) : Scans k.sql (flattenAll k.items) := by
  have hdir : ∀ b : Bool, Scans (if b then "DESC" else "ASC").toList
      (flattenAll [kwItem (if b then "DESC" else "ASC")]) := by
    rintro (_ | _)
    · exact scans_of_word (w := "ASC".toList) rfl rfl
    · exact scans_of_word (w := "DESC".toList) rfl rfl
  exact (scans_column h).space (hdir k.desc)

theorem parseKey_items (k : SortKey) : parseKey k.items = some (k.field, k.desc) := by
  obtain ⟨field, desc⟩ := k
  cases desc with
  | false =>
    show (if isKw "ASC" (kwItem "ASC") = true then some (field, false) else
      if isKw "DESC" (kwItem "ASC") = true then some (field, true) else none) = _
    rw [if_pos (by decide)]
  | true =>
    show (if isKw "ASC" (kwItem "DESC") = true then some (field, false) else
      if isKw "DESC" (kwItem "DESC") = true then some (field, true) else none) = _
    rw [if_neg (by decide), if_pos (by decide)]

theorem mapM_parseKey (keys : List SortKey) :
    (keys.map SortKey.items).mapM parseKey = some (keys.map fun k => (k.field, k.desc)) := by
  induction keys with
  | nil => rfl
  | cons k keys ih =>
    rw [List.map_cons, List.mapM_cons, parseKey_items, ih]
    rfl

theorem splitCommas_items {keys : List SortKey} (hne : keys ≠ []) :
    splitCommas (joinItems (.atom (.sym [','])) (keys.map SortKey.items)) =
      keys.map SortKey.items := by
  induction keys with
  | nil => exact absurd rfl hne
  | cons k keys ih =>
    cases keys with
    | nil => rfl
    | cons k' keys =>
      show splitCommas (k.items ++ .atom (.sym [',']) ::
        joinItems (.atom (.sym [','])) ((k' :: keys).map SortKey.items)) = _
      show consHead _ (consHead _ ([] :: splitCommas _)) = _
      rw [ih (List.cons_ne_nil _ _)]
      rfl

/-- **The text of a sort specification denotes its keys.** -/
theorem parseOrder_sortSql {keys : List SortKey} (hne : keys ≠ [])
    (h : ∀ k ∈ keys, k.field ∈ columns) :
    parseOrder (sortSql keys) = some (keys.map fun k => (k.field, k.desc)) := by
  have hcomma : Runs .start (',' :: " ".toList) (Item.atom (.sym [','])).flatten .start :=
    ⟨rfl⟩
  have hall : List.Forall₂ (fun s is => Scans s (flattenAll is)) (keys.map SortKey.sql)
      (keys.map SortKey.items) := by
    rw [List.forall₂_map_left_iff, List.forall₂_map_right_iff]
    exact List.forall₂_same.mpr fun k hk => SortKey.scans (h k hk)
  have hlex := (scans_joinText (Or.inr (Or.inl rfl)) hcomma hall
    fun hnil => hne (List.map_eq_nil_iff.mp hnil)).lex
  unfold parseOrder
  rw [show lex (sortSql keys) = _ from hlex]
  show (Sql.group _).bind _ = _
  rw [group_flatten]
  show (splitCommas _).mapM parseKey = _
  rw [splitCommas_items hne, mapM_parseKey]

theorem compileSortKey_columns {s : Json} {k : SortKey} (h : compileSortKey s = .ok k) :
    k.field ∈ columns := by
  obtain ⟨field, -, h⟩ := compile_bind_ok_iff.mp h
  split at h
  · cases h
  · next hknown =>
    obtain ⟨dir, -, h⟩ := compile_bind_ok_iff.mp h
    split at h
    · cases h
    · cases h
      cases htype : fields.lookup field with
      | none => exact absurd (by rw [htype]; rfl) hknown
      | some type => exact mem_columns htype

/-- The key an element of the sort array asks for: ascending unless `dir` says otherwise. -/
def SortKey.Of (s : Json) (k : SortKey) : Prop :=
  s.valueStr "field".toList [] = .ok k.field ∧ ∃ dir,
    s.valueStr "dir".toList "asc".toList = .ok dir ∧
      lower dir = (if k.desc then "desc" else "asc").toList

theorem compileSortKey_of {s : Json} {k : SortKey} (h : compileSortKey s = .ok k) : k.Of s := by
  obtain ⟨field, hfield, h⟩ := compile_bind_ok_iff.mp h
  split at h
  · cases h
  · obtain ⟨dir, hdir, h⟩ := compile_bind_ok_iff.mp h
    split at h
    · cases h
    · next hdirs =>
      cases h
      refine ⟨liftJson_eq_ok_iff.mp hfield, dir, liftJson_eq_ok_iff.mp hdir, ?_⟩
      by_cases hdesc : lower dir = "desc".toList
      · show _ = (if decide (lower dir = "desc".toList) = true then "desc" else "asc").toList
        rw [if_pos (decide_eq_true hdesc)]
        exact hdesc
      · show _ = (if decide (lower dir = "desc".toList) = true then "desc" else "asc").toList
        rw [if_neg (by rw [decide_eq_true_iff]; exact hdesc)]
        exact Decidable.not_not.mp fun hasc => hdirs ⟨hasc, hdesc⟩

theorem mapM_compileSortKey {ss : List Json} {keys : List SortKey}
    (h : ss.mapM compileSortKey = .ok keys) :
    List.Forall₂ (fun s k => compileSortKey s = .ok k) ss keys := by
  induction ss generalizing keys with
  | nil =>
    cases h
    exact .nil
  | cons s ss ih =>
    rw [List.mapM_cons] at h
    obtain ⟨k, hk, h⟩ := compile_bind_ok_iff.mp h
    obtain ⟨rest, hrest, h⟩ := compile_bind_ok_iff.mp h
    cases h
    exact .cons hk (ih hrest)

theorem sortKeys_columns {ss : List Json} {keys : List SortKey}
    (h : List.Forall₂ (fun s k => compileSortKey s = .ok k) ss keys) :
    ∀ k ∈ keys, k.field ∈ columns := by
  induction h with
  | nil => exact List.forall_mem_nil _
  | cons hk _ ih => exact List.forall_mem_cons.mpr ⟨compileSortKey_columns hk, ih⟩

/-! ### The keys of a sort specification -/

/-- The keys a sort specification asks for: newest first when it is no array or an empty one. -/
def SortedBy (sort : Json) (keys : List SortKey) : Prop :=
  match sort with
  | .arr (s :: ss) => List.Forall₂ (fun s k => k.Of s) (s :: ss) keys
  | _ => keys = [⟨"date_obs_utc".toList, true⟩]

theorem compileSort_ok {sort : Json} {keys : List SortKey} (h : compileSort sort = .ok keys) :
    SortedBy sort keys ∧ keys ≠ [] ∧ ∀ k ∈ keys, k.field ∈ columns := by
  unfold compileSort at h
  split at h
  · next s ss =>
    have hall := mapM_compileSortKey h
    refine ⟨hall.imp fun _ _ hk => compileSortKey_of hk, ?_, sortKeys_columns hall⟩
    rintro rfl
    cases hall
  · next hother =>
    cases h
    refine ⟨?_, List.cons_ne_nil _ _, List.forall_mem_singleton.mpr (by decide)⟩
    unfold SortedBy
    split
    · next s ss => exact absurd rfl (hother s ss)
    · rfl

/-! ### The connection's escaping -/

section Session

/-- The library's escaping: each character that could end or change a literal after a backslash. -/
def escapeChar (c : Char) : Str :=
  if c = '\'' ∨ c = '"' ∨ c = '\\' then ['\\', c]
  else if c.toNat = 0 then ['\\', '0']
  else if c = '\n' then ['\\', 'n']
  else if c = '\r' then ['\\', 'r']
  else if c.toNat = 26 then ['\\', 'Z']
  else [c]

/-- A connection whose cosine is used at the equator only. -/
def equator : SqlSession := ⟨fun s => s.flatMap escapeChar, fun _ => 1⟩

theorem escaped_equator (s : Str) : Escaped (equator.escape s) = true := by
  have hcons : ∀ (c d : Char) (t : Str), c = '\\' → Escaped (c :: d :: t) = Escaped t := by
    rintro c d t rfl
    rfl
  have hplain : ∀ (c : Char) (t : Str), c ≠ '\'' → c ≠ '\\' → Escaped (c :: t) = Escaped t := by
    intro c t hq hb
    rw [Escaped]
    · exact fun he _ => hb he
    · exact fun _ _ he _ => hb he
    · exact fun he => hq he
  induction s with
  | nil => rfl
  | cons c s ih =>
    show Escaped (escapeChar c ++ s.flatMap escapeChar) = true
    unfold escapeChar
    split
    · exact (hcons _ c _ rfl).trans ih
    · next hc =>
      split
      · exact (hcons _ _ _ rfl).trans ih
      · split
        · exact (hcons _ _ _ rfl).trans ih
        · split
          · exact (hcons _ _ _ rfl).trans ih
          · split
            · exact (hcons _ _ _ rfl).trans ih
            · exact (hplain c _ (fun he => hc (Or.inl he)) fun he => hc (Or.inr (Or.inr he))).trans ih

end Session

end StarBase.Query
