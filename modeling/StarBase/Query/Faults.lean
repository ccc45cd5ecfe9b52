import StarBase.Query.FilterRead

/-!
# How the filter compiler fails

A `QueryError` is answered as the caller's mistake; any other exception is not.

* `MembersTyped` — the members that one node reads are there, with the types they are taken for;
* `Reached` — the nodes the compiler comes to: the clauses before them compile;
* `compileNode_fault` — **PROVED**: an exception of the JSON library comes from a node that is
  reached and lacks a member or has one of a wrong type, and every such node raises one;
* `compileFilter_queryOnly_iff` — **PROVED**: the compiler fails with a `QueryError` only, exactly
  on the filters whose nodes, as far as they are reached, have their members.
-/

namespace StarBase.Query

open Extract

/-! ### What a node reads -/

/-- The members that a node reads whatever its values. -/
def MembersTyped : Json → Prop
  | .obj fs =>
    let node := Json.obj fs
    (∀ v, node.at? "op".toList = some v → ∃ s, v = .str s) ∧
    (nodeOp node ∈ logicalOps → (node.at? "clauses".toList).isSome) ∧
    (nodeOp node = "cone".toList → ∀ ra dec r, node.at? "ra".toList = some ra →
      node.at? "dec".toList = some dec → node.at? "radius_deg".toList = some r →
        (num? ra).isSome ∧ (num? dec).isSome ∧ (num? r).isSome) ∧
    (nodeOp node ∉ logicalOps → nodeOp node ∉ membershipOps →
      (node.at? "field".toList).isSome ∧
      ∀ field, node.at? "field".toList = some (.str field) → (fields.lookup field).isSome →
        nodeOp node = "in".toList ∨ nodeOp node = "between".toList →
          (node.at? "value".toList).isSome)
  | _ => True

/-- A node the compiler comes to, if it comes to the end of the clauses before it. -/
inductive Reached (ast : Json) : Json → Prop
  | root : Reached ast ast
  | clause {node x : Json} {before after : List Json} (h : Reached ast node)
      (hop : nodeOp node ∈ logicalOps)
      (hclauses : node.at? "clauses".toList = some (.arr (before ++ x :: after)))
      (hnot : nodeOp node = "not".toList → before = [] ∧ after = [])
      (hbefore : ∀ p ∈ before, ∃ c, compileNode p = .ok c) : Reached ast x

theorem Reached.trans {ast node x : Json} (h : Reached ast node) (h' : Reached node x) :
    Reached ast x := by
  induction h' with
  | root => exact h
  | clause _ hop hclauses hnot hbefore ih => exact .clause ih hop hclauses hnot hbefore

/-! ### Results without a fault -/

/-- A result or a `QueryError`. -/
def QueryOnly {α : Type} (r : Compile α) : Prop := ∀ t, r ≠ .error (.other t)

theorem queryOnly_ok {α : Type} (a : α) : QueryOnly (.ok a) := fun _ h => by cases h

theorem queryOnly_query {α : Type} (s : Str) : QueryOnly (.error (.query s) : Compile α) :=
  fun _ h => by cases h

theorem QueryOnly.bind {α β : Type} {r : Compile α} {f : α → Compile β} (hr : QueryOnly r)
    (hf : ∀ a, r = .ok a → QueryOnly (f a)) : QueryOnly (r >>= f) := by
  cases r with
  | ok a => exact hf a rfl
  | error e =>
    intro t h
    exact hr t (by cases h; rfl)

theorem QueryOnly.map {α β : Type} {r : Compile α} (f : α → β) (h : QueryOnly r) :
    QueryOnly (f <$> r) := by
  cases r with
  | ok a => exact queryOnly_ok _
  | error e =>
    intro t he
    exact h t (by cases he; rfl)

theorem literal_queryOnly (type : FieldType) (v : Json) : QueryOnly (literal type v) := by
  unfold literal
  split
  · exact queryOnly_ok _
  · split
    · exact queryOnly_ok _
    · exact queryOnly_query _
  · exact queryOnly_query _
  · exact queryOnly_ok _
  · exact queryOnly_ok _
  · exact queryOnly_query _

theorem literals_queryOnly (type : FieldType) (vs : List Json) :
    QueryOnly (vs.mapM (literal type)) := by
  induction vs with
  | nil => exact queryOnly_ok _
  | cons v vs ih =>
    rw [List.mapM_cons]
    exact (literal_queryOnly type v).bind fun _ _ => ih.bind fun _ _ => queryOnly_ok _

theorem member_queryOnly {node : Json} {key : Str} (h : (node.at? key).isSome) :
    QueryOnly (member node key) := by
  obtain ⟨v, hv⟩ := Option.isSome_iff_exists.mp h
  unfold member
  rw [hv]
  exact queryOnly_ok v

theorem getDouble_queryOnly {j : Json} (h : (num? j).isSome) : QueryOnly (getDouble j) := by
  obtain ⟨n, hn⟩ := Option.isSome_iff_exists.mp h
  unfold getDouble
  rw [hn]
  exact queryOnly_ok n

/-- An operator that is a string, or absent. -/
theorem valueStr_queryOnly {fs : List (Str × Json)} {d : Str}
    (h : ∀ v, (Json.obj fs).at? "op".toList = some v → ∃ s, v = .str s) :
    QueryOnly (liftJson ((Json.obj fs).valueStr "op".toList d)) := by
  cases hop : fs.lookup "op".toList with
  | none =>
    rw [valueStr_absent hop]
    exact queryOnly_ok _
  | some v =>
    obtain ⟨s, rfl⟩ := h v hop
    rw [valueStr_obj hop]
    exact queryOnly_ok _

/-! ### Leaves -/

section Leaves

variable {fs : List (Str × Json)}

theorem compileKeyword_queryOnly {field : Str}
    (hop : ∀ v, (Json.obj fs).at? "op".toList = some v → ∃ s, v = .str s) :
    QueryOnly (compileKeyword field (.obj fs)) := by
  unfold compileKeyword
  dsimp only
  split
  · exact queryOnly_query _
  · refine (valueStr_queryOnly hop).bind fun op _ => ?_
    split
    · exact queryOnly_ok _
    · split
      · exact queryOnly_query _
      · exact queryOnly_query _
      · split
        · exact queryOnly_ok _
        · exact (literal_queryOnly _ _).bind fun _ _ => queryOnly_ok _

theorem compileCone_queryOnly {node : Json} (h : ∀ ra dec r, node.at? "ra".toList = some ra →
    node.at? "dec".toList = some dec → node.at? "radius_deg".toList = some r →
      (num? ra).isSome ∧ (num? dec).isSome ∧ (num? r).isSome) : QueryOnly (compileCone node) := by
  unfold compileCone
  split
  · next ra dec r hra hdec hr =>
    obtain ⟨hra', hdec', hr'⟩ := h ra dec r hra hdec hr
    refine (getDouble_queryOnly hra').bind fun _ _ => (getDouble_queryOnly hdec').bind fun _ _ =>
      (getDouble_queryOnly hr').bind fun _ _ => ?_
    split
    · exact queryOnly_query _
    · exact queryOnly_ok _
  · exact queryOnly_query _

theorem compileSetRef_queryOnly (node : Json) (missing wrong : Str) :
    QueryOnly (compileSetRef node missing wrong) := by
  unfold compileSetRef
  split
  · exact queryOnly_query _
  · split
    · exact queryOnly_ok _
    · exact queryOnly_ok _
    · exact queryOnly_query _

theorem compileOperator_queryOnly {field op : Str} {type : FieldType} {node : Json}
    (h : op = "in".toList ∨ op = "between".toList → (node.at? "value".toList).isSome) :
    QueryOnly (compileOperator field type op node) := by
  unfold compileOperator
  split
  · next hin =>
    refine (member_queryOnly (h (Or.inl hin))).bind fun v _ => ?_
    split
    · exact (literals_queryOnly _ _).bind fun _ _ => queryOnly_ok _
    · exact queryOnly_query _
  · split
    · next hbetween =>
      refine (member_queryOnly (h (Or.inr hbetween))).bind fun v _ => ?_
      split
      · exact (literal_queryOnly _ _).bind fun _ _ =>
          (literal_queryOnly _ _).bind fun _ _ => queryOnly_ok _
      · exact queryOnly_query _
    · split
      · exact queryOnly_query _
      · exact queryOnly_query _
      · exact (literal_queryOnly _ _).bind fun _ _ => queryOnly_ok _

/-- The operator of a node that names one, whatever the default. -/
theorem valueStr_nodeOp {d op : Str} (h : (Json.obj fs).valueStr "op".toList d = .ok op)
    (hne : op ≠ d) : nodeOp (.obj fs) = op := by
  refine nodeOp_eq ?_
  cases hop : fs.lookup "op".toList with
  | none =>
    rw [valueStr_absent hop] at h
    exact absurd (Except.ok.inj h).symm hne
  | some v =>
    rw [valueStr_obj hop] at h ⊢
    exact h

theorem compileComparison_queryOnly
    (hop : ∀ v, (Json.obj fs).at? "op".toList = some v → ∃ s, v = .str s)
    (hfield : ((Json.obj fs).at? "field".toList).isSome)
    (hvalue : ∀ field, (Json.obj fs).at? "field".toList = some (.str field) →
      (fields.lookup field).isSome → nodeOp (.obj fs) = "in".toList ∨
        nodeOp (.obj fs) = "between".toList → ((Json.obj fs).at? "value".toList).isSome) :
    QueryOnly (compileComparison (.obj fs)) := by
  refine (member_queryOnly hfield).bind fun fieldJ hfieldJ => ?_
  refine QueryOnly.bind (r := requireString fieldJ "field".toList) ?_ fun field hfield' => ?_
  · unfold requireString
    split
    · exact queryOnly_ok _
    · exact queryOnly_query _
  have hat : (Json.obj fs).at? "field".toList = some (.str field) := by
    unfold requireString at hfield'
    split at hfield'
    · cases hfield'
      exact member_ok hfieldJ
    · cases hfield'
  split
  · exact compileKeyword_queryOnly hop
  · split
    · exact queryOnly_query _
    · next type htype =>
      refine (valueStr_queryOnly hop).bind fun op hopv => ?_
      split
      · exact queryOnly_ok _
      · split
        · exact queryOnly_ok _
        · split
          · exact queryOnly_ok _
          · refine compileOperator_queryOnly fun hmember => ?_
            have hne : op ≠ "eq".toList := by
              rcases hmember with rfl | rfl <;> decide
            have hnode := valueStr_nodeOp (liftJson_eq_ok_iff.mp hopv) hne
            rw [← hnode] at hmember
            exact hvalue field hat (by rw [htype]; rfl) hmember

theorem compileLeaf_queryOnly (hlogic : nodeOp (.obj fs) ∉ logicalOps)
    (h : MembersTyped (.obj fs)) : QueryOnly (compileLeaf (.obj fs)) := by
  obtain ⟨hop, -, hcone, hcomparison⟩ := h
  unfold compileLeaf
  split
  · next hisCone => exact compileCone_queryOnly (hcone hisCone)
  · next hisCone =>
    split
    · exact (compileSetRef_queryOnly _ _ _).bind fun _ _ => queryOnly_ok _
    · next htag =>
      split
      · exact (compileSetRef_queryOnly _ _ _).bind fun _ _ => queryOnly_ok _
      · next hin =>
        have hmember := not_membership hisCone htag hin
        obtain ⟨hfield, hvalue⟩ := hcomparison hlogic hmember
        exact compileComparison_queryOnly hop hfield hvalue

/-! ### Faults -/

/-- An exception of the JSON library. -/
def Faults {α : Type} (r : Compile α) : Prop := ∃ t, r = .error (.other t)

theorem queryOnly_or_faults {α : Type} (r : Compile α) : QueryOnly r ∨ Faults r := by
  by_cases h : Faults r
  · exact Or.inr h
  · exact Or.inl fun t ht => h ⟨t, ht⟩

theorem Faults.bind {α β : Type} {r : Compile α} {f : α → Compile β} (h : Faults r) :
    Faults (r >>= f) := by
  obtain ⟨t, rfl⟩ := h
  exact ⟨t, rfl⟩

theorem Faults.bind_of_ok {α β : Type} {r : Compile α} {f : α → Compile β} {a : α} (hr : r = .ok a)
    (h : Faults (f a)) : Faults (r >>= f) := by
  rw [hr]
  exact h

theorem Faults.of_bind {α β : Type} {r : Compile α} {f : α → Compile β} {t : Thrown}
    (hf : ∀ a, QueryOnly (f a)) (h : (r >>= f) = .error (.other t)) : Faults r :=
  (queryOnly_or_faults r).resolve_left fun hr => hr.bind (fun a _ => hf a) t h

theorem Faults.map {α β : Type} {r : Compile α} {f : α → β} (h : Faults r) : Faults (f <$> r) := by
  obtain ⟨t, rfl⟩ := h
  exact ⟨t, rfl⟩

theorem member_faults {node : Json} {key : Str} (h : ¬(node.at? key).isSome) :
    Faults (member node key) := by
  have hnone : node.at? key = none := Option.not_isSome_iff_eq_none.mp h
  unfold member
  rw [hnone]
  exact ⟨_, rfl⟩

theorem getDouble_faults {j : Json} (h : ¬(num? j).isSome) : Faults (getDouble j) := by
  have hnone : num? j = none := Option.not_isSome_iff_eq_none.mp h
  unfold getDouble
  rw [hnone]
  exact ⟨_, rfl⟩

theorem getDouble_ok {j : Json} (h : (num? j).isSome) : ∃ n, getDouble j = .ok n := by
  obtain ⟨n, hn⟩ := Option.isSome_iff_exists.mp h
  unfold getDouble
  rw [hn]
  exact ⟨n, rfl⟩

theorem getStr_faults {v : Json} (h : ¬∃ s, v = .str s) : Faults (liftJson v.getStr) := by
  cases v with
  | str s => exact absurd ⟨s, rfl⟩ h
  | null => exact ⟨_, rfl⟩
  | bool b => exact ⟨_, rfl⟩
  | int i => exact ⟨_, rfl⟩
  | float b n d => exact ⟨_, rfl⟩
  | arr items => exact ⟨_, rfl⟩
  | obj fs => exact ⟨_, rfl⟩

/-- An operator that is there and no string. -/
theorem compileObject_faults_op {clauses : List (Compile Cond)} {v : Json}
    (hop : (Json.obj fs).at? "op".toList = some v) (h : ¬∃ s, v = .str s) :
    Faults (compileObject (.obj fs) clauses) := by
  unfold compileObject
  rw [valueStr_obj hop]
  exact (getStr_faults h).bind

theorem valueStr_typed {d : Str}
    (h : ∀ v, (Json.obj fs).at? "op".toList = some v → ∃ s, v = .str s) :
    ∃ op, (Json.obj fs).valueStr "op".toList d = .ok op := by
  cases hop : fs.lookup "op".toList with
  | none => exact ⟨d, valueStr_absent hop⟩
  | some v =>
    obtain ⟨s, rfl⟩ := h v hop
    exact ⟨s, valueStr_obj hop⟩

/-- The rest of a node, once its operator is read. -/
theorem compileObject_eq {node : Json} {clauses : List (Compile Cond)} {op : Str}
    (hop : node.valueStr "op".toList [] = .ok op) : compileObject node clauses =
      if nodeOp node = "and".toList ∨ nodeOp node = "or".toList then do
        let v ← member node "clauses".toList
        match v with
        | .arr (_ :: _) => do
          let cs ← inOrder clauses
          pure (if nodeOp node = "and".toList then .all cs else .any cs)
        | _ => .error (.query ("'".toList ++ nodeOp node
            ++ "' needs a non-empty clauses array".toList))
      else if nodeOp node = "not".toList then do
        let v ← member node "clauses".toList
        match v, clauses with
        | .arr [_], [r] => do
          let c ← r
          pure (.neg c)
        | _, _ => .error (.query "'not' needs exactly one clause".toList)
      else Cond.leaf <$> compileLeaf node := by
  obtain rfl : nodeOp node = op := nodeOp_eq hop
  unfold compileObject compileLeaf
  rw [hop]
  show (if _ then _ else if _ then _ else if _ then _ else if _ then _ else if _ then _ else _) = _
  split
  · rfl
  · split
    · rfl
    · split
      · rfl
      · split
        · rfl
        · split
          · rfl
          · rfl

theorem logical_cases {node : Json} : nodeOp node ∈ logicalOps ↔
    (nodeOp node = "and".toList ∨ nodeOp node = "or".toList) ∨ nodeOp node = "not".toList := by
  show nodeOp node ∈ ["and".toList, "or".toList, "not".toList] ↔ _
  simp only [List.mem_cons, List.not_mem_nil, or_false, or_assoc]

theorem compileCone_faults {node ra dec r : Json} (hra : node.at? "ra".toList = some ra)
    (hdec : node.at? "dec".toList = some dec) (hr : node.at? "radius_deg".toList = some r)
    (h : ¬((num? ra).isSome ∧ (num? dec).isSome ∧ (num? r).isSome)) : Faults (compileCone node) := by
  unfold compileCone
  rw [hra, hdec, hr]
  by_cases h₁ : (num? ra).isSome
  · obtain ⟨_, h₁'⟩ := getDouble_ok h₁
    refine Faults.bind_of_ok h₁' ?_
    by_cases h₂ : (num? dec).isSome
    · obtain ⟨_, h₂'⟩ := getDouble_ok h₂
      refine Faults.bind_of_ok h₂' ?_
      exact (getDouble_faults fun h₃ => h ⟨h₁, h₂, h₃⟩).bind
    · exact (getDouble_faults h₂).bind
  · exact (getDouble_faults h₁).bind

theorem columns_not_keyword : ∀ f ∈ columns, "keyword:".toList.isPrefixOf f = false := by
  decide

theorem compileComparison_faults {field : Str}
    (hop : ∀ v, (Json.obj fs).at? "op".toList = some v → ∃ s, v = .str s)
    (hfield : (Json.obj fs).at? "field".toList = some (.str field))
    (hknown : (fields.lookup field).isSome)
    (hmember : nodeOp (.obj fs) = "in".toList ∨ nodeOp (.obj fs) = "between".toList)
    (hvalue : ¬((Json.obj fs).at? "value".toList).isSome) :
    Faults (compileComparison (.obj fs)) := by
  obtain ⟨type, htype⟩ := Option.isSome_iff_exists.mp hknown
  obtain ⟨op, hopv⟩ := valueStr_typed (d := "eq".toList) hop
  have hop' : op = nodeOp (.obj fs) := by
    cases hat : fs.lookup "op".toList with
    | none =>
      rw [nodeOp_eq (valueStr_absent hat)] at hmember
      rcases hmember with h | h <;> cases h
    | some v =>
      refine (nodeOp_eq ?_).symm
      rw [valueStr_obj hat] at hopv ⊢
      exact hopv
  rw [← hop'] at hmember
  have hnull : op ≠ "isnull".toList ∧ op ≠ "notnull".toList ∧ op ≠ "eq".toList ∧
      op ≠ "like".toList := by
    rcases hmember with rfl | rfl <;> decide
  obtain ⟨hisnull, hnotnull, heq, hlike⟩ := hnull
  have hnames : objectNames field op (.obj fs) = none := by
    unfold objectNames
    split
    · exact if_neg fun h => h.2.elim heq hlike
    · rfl
  have hread : member (.obj fs) "field".toList = .ok (.str field) := by
    unfold member
    rw [hfield]
  refine Faults.bind_of_ok hread (Faults.bind_of_ok (a := field) rfl ?_)
  rw [columns_not_keyword field (mem_columns htype), if_neg Bool.false_ne_true]
  rw [htype]
  refine Faults.bind_of_ok (liftJson_eq_ok_iff.mpr hopv) ?_
  rw [if_neg hisnull, if_neg hnotnull, hnames]
  show Faults (compileOperator field type op (.obj fs))
  unfold compileOperator
  by_cases hin : op = "in".toList
  · rw [if_pos hin]
    exact (member_faults hvalue).bind
  · rw [if_neg hin, if_pos (hmember.resolve_left hin)]
    exact (member_faults hvalue).bind

/-- **A node without its members raises an exception of the JSON library.** -/
theorem compileObject_faults {clauses : List (Compile Cond)} (h : ¬MembersTyped (.obj fs)) :
    Faults (compileObject (.obj fs) clauses) := by
  by_cases hop : ∀ v, (Json.obj fs).at? "op".toList = some v → ∃ s, v = .str s
  · obtain ⟨op, hopv⟩ := valueStr_typed (d := []) hop
    rw [compileObject_eq hopv]
    by_cases hlogic : nodeOp (.obj fs) ∈ logicalOps
    · have hclauses : ¬((Json.obj fs).at? "clauses".toList).isSome := by
        intro hsome
        refine h ⟨hop, fun _ => hsome, fun hcone => ?_, fun hnot => absurd hlogic hnot⟩
        rw [hcone] at hlogic
        exact absurd hlogic (by decide)
      rcases logical_cases.mp hlogic with hjoin | hnot
      · rw [if_pos hjoin]
        exact (member_faults hclauses).bind
      · have hjoin : ¬(nodeOp (.obj fs) = "and".toList ∨ nodeOp (.obj fs) = "or".toList) := by
          rw [hnot]
          decide
        rw [if_neg hjoin, if_pos hnot]
        exact (member_faults hclauses).bind
    · rw [if_neg fun hjoin => hlogic (logical_cases.mpr (Or.inl hjoin)),
        if_neg fun hnot => hlogic (logical_cases.mpr (Or.inr hnot))]
      refine Faults.map ?_
      by_cases hmember : nodeOp (.obj fs) ∈ membershipOps
      · -- of these only a cone reads members without a test
        have hcone : ¬(nodeOp (.obj fs) = "cone".toList → ∀ ra dec r,
            (Json.obj fs).at? "ra".toList = some ra → (Json.obj fs).at? "dec".toList = some dec →
              (Json.obj fs).at? "radius_deg".toList = some r →
                (num? ra).isSome ∧ (num? dec).isSome ∧ (num? r).isSome) := fun hcone =>
          h ⟨hop, fun hl => absurd hl hlogic, hcone, fun _ hn => absurd hmember hn⟩
        push Not at hcone
        obtain ⟨hisCone, ra, dec, r, hra, hdec, hr, hbad⟩ := hcone
        unfold compileLeaf
        rw [if_pos hisCone]
        exact compileCone_faults hra hdec hr fun hall => hbad hall.1 hall.2.1 hall.2.2
      · have hcmp : compileLeaf (.obj fs) = compileComparison (.obj fs) := by
          have hne : ∀ o ∈ membershipOps, nodeOp (.obj fs) ≠ o := fun o ho he => hmember (he ▸ ho)
          unfold compileLeaf
          rw [if_neg (hne _ (by decide)),
            if_neg (not_or.mpr ⟨hne _ (by decide), hne _ (by decide)⟩), if_neg (hne _ (by decide))]
        rw [hcmp]
        by_cases hfield : ((Json.obj fs).at? "field".toList).isSome
        · have hvalue : ¬∀ field, (Json.obj fs).at? "field".toList = some (.str field) →
              (fields.lookup field).isSome →
                nodeOp (.obj fs) = "in".toList ∨ nodeOp (.obj fs) = "between".toList →
                  ((Json.obj fs).at? "value".toList).isSome := fun hvalue =>
            h ⟨hop, fun hl => absurd hl hlogic,
              fun hc => absurd (hc ▸ by decide) hmember, fun _ _ => ⟨hfield, hvalue⟩⟩
          push Not at hvalue
          obtain ⟨field, hat, hknown, hin, hnone⟩ := hvalue
          exact compileComparison_faults hop hat hknown hin hnone
        · exact (member_faults hfield).bind
  · push Not at hop
    obtain ⟨v, hv, hbad⟩ := hop
    exact compileObject_faults_op hv fun ⟨s, hs⟩ => hbad s hs

end Leaves

/-! ### Nodes -/

/-- The first result that is no value. -/
theorem inOrder_faults {rs : List (Compile Cond)} {t : Thrown}
    (h : inOrder rs = .error (.other t)) : ∃ before r after, rs = before ++ r :: after ∧
      (∀ p ∈ before, ∃ c, p = .ok c) ∧ r = .error (.other t) := by
  induction rs with
  | nil => cases h
  | cons r rs ih =>
    cases r with
    | error e =>
      obtain rfl : e = .other t := Except.error.inj h
      exact ⟨[], _, rs, rfl, List.forall_mem_nil _, rfl⟩
    | ok c =>
      have hrest : inOrder rs = .error (.other t) := by
        cases hr : inOrder rs with
        | ok cs =>
          have h' : (do let as ← inOrder rs; pure (c :: as)) = .error (.other t) := h
          rw [hr] at h'
          cases h'
        | error e =>
          have h' : (do let as ← inOrder rs; pure (c :: as)) = .error (.other t) := h
          rw [hr] at h'
          exact h'
      obtain ⟨before, r, after, rfl, hbefore, hr⟩ := ih hrest
      refine ⟨.ok c :: before, r, after, rfl, ?_, hr⟩
      exact List.forall_mem_cons.mpr ⟨⟨c, rfl⟩, hbefore⟩

theorem inOrder_of_faults {before after : List (Compile Cond)} {r : Compile Cond}
    (hbefore : ∀ p ∈ before, ∃ c, p = .ok c) (hr : Faults r) :
    Faults (inOrder (before ++ r :: after)) := by
  induction before with
  | nil => exact hr.bind
  | cons p ps ih =>
    obtain ⟨c, rfl⟩ := hbefore p List.mem_cons_self
    exact Faults.bind_of_ok (a := c) rfl
      (ih fun q hq => hbefore q (List.mem_cons_of_mem _ hq)).bind

theorem compileNode_obj {fs : List (Str × Json)} {items : List Json}
    (hclauses : fs.lookup "clauses".toList = some (.arr items)) :
    compileNode (.obj fs) = compileObject (.obj fs) (items.map compileNode) := by
  show compileObject (.obj fs) (((compileMembers fs).lookup "clauses".toList).getD []) = _
  rw [lookup_compileMembers, hclauses, ← compileItems_eq]
  rfl

/-- A clause that is reached and faults makes its node fault. -/
theorem compileNode_faults_clause {node x : Json} {before after : List Json}
    (hop : nodeOp node ∈ logicalOps)
    (hclauses : node.at? "clauses".toList = some (.arr (before ++ x :: after)))
    (hnot : nodeOp node = "not".toList → before = [] ∧ after = [])
    (hbefore : ∀ p ∈ before, ∃ c, compileNode p = .ok c) (hx : Faults (compileNode x)) :
    Faults (compileNode node) := by
  cases node with
  | obj fs =>
    rw [compileNode_obj hclauses]
    by_cases htyped : MembersTyped (.obj fs)
    · obtain ⟨op, hopv⟩ := valueStr_typed (d := []) htyped.1
      have hmember : member (.obj fs) "clauses".toList = .ok (.arr (before ++ x :: after)) := by
        unfold member
        rw [hclauses]
      rw [compileObject_eq hopv, hmember]
      rcases logical_cases.mp hop with hjoin | hisNot
      · rw [if_pos hjoin]
        have hall : Faults (inOrder ((before ++ x :: after).map compileNode)) := by
          rw [List.map_append, List.map_cons]
          refine inOrder_of_faults (fun p hp => ?_) hx
          obtain ⟨q, hq, rfl⟩ := List.mem_map.mp hp
          exact hbefore q hq
        have hcons : ∃ y ys, before ++ x :: after = y :: ys := by
          cases before with
          | nil => exact ⟨x, after, rfl⟩
          | cons b bs => exact ⟨b, bs ++ x :: after, rfl⟩
        obtain ⟨y, ys, hy⟩ := hcons
        rw [hy] at hall ⊢
        exact hall.bind
      · have hjoin : ¬(nodeOp (.obj fs) = "and".toList ∨ nodeOp (.obj fs) = "or".toList) := by
          rw [hisNot]
          decide
        obtain ⟨rfl, rfl⟩ := hnot hisNot
        rw [if_neg hjoin, if_pos hisNot]
        exact hx.bind
    · exact compileObject_faults htyped
  | null => cases hclauses
  | bool b => cases hclauses
  | int i => cases hclauses
  | float b n d => cases hclauses
  | str s => cases hclauses
  | arr items => cases hclauses

/-- **A fault anywhere the compiler comes to is a fault of the filter.** -/
theorem Reached.faults {ast node : Json} (h : Reached ast node) (hnode : Faults (compileNode node)) :
    Faults (compileNode ast) := by
  induction h with
  | root => exact hnode
  | clause _ hop hclauses hnot hbefore ih =>
    exact ih (compileNode_faults_clause hop hclauses hnot hbefore hnode)

theorem compileNode_faults {node : Json} (h : ¬MembersTyped node) : Faults (compileNode node) := by
  cases node with
  | obj fs => exact compileObject_faults h
  | null => exact absurd trivial h
  | bool b => exact absurd trivial h
  | int i => exact absurd trivial h
  | float b n d => exact absurd trivial h
  | str s => exact absurd trivial h
  | arr items => exact absurd trivial h

/-- A node with its members faults only through a clause that is reached. -/
theorem faults_of_clause {fs : List (Str × Json)} (htyped : MembersTyped (.obj fs))
    (h : Faults (compileNode (.obj fs))) : ∃ before x after, nodeOp (.obj fs) ∈ logicalOps ∧
      fs.lookup "clauses".toList = some (.arr (before ++ x :: after)) ∧
      (nodeOp (.obj fs) = "not".toList → before = [] ∧ after = []) ∧
      (∀ p ∈ before, ∃ c, compileNode p = .ok c) ∧ Faults (compileNode x) := by
  obtain ⟨op, hopv⟩ := valueStr_typed (d := []) htyped.1
  by_cases hlogic : nodeOp (.obj fs) ∈ logicalOps
  · obtain ⟨v, hv⟩ := Option.isSome_iff_exists.mp (htyped.2.1 hlogic)
    have hmember : member (.obj fs) "clauses".toList = .ok v := by
      unfold member
      rw [hv]
    have hnode : ∀ cs, compileObject (.obj fs) cs = _ := fun cs => compileObject_eq hopv
    rcases logical_cases.mp hlogic with hjoin | hisNot
    · have hne : nodeOp (.obj fs) ≠ "not".toList := by
        rcases hjoin with he | he <;> rw [he] <;> decide
      obtain ⟨t, ht⟩ := h
      by_cases harr : ∃ y ys, v = .arr (y :: ys)
      · obtain ⟨y, ys, rfl⟩ := harr
        rw [compileNode_obj hv, hnode, if_pos hjoin, hmember] at ht
        obtain ⟨t', hall⟩ := Faults.of_bind (fun _ => queryOnly_ok _) ht
        obtain ⟨before, r, after, hmap, hbefore, hr⟩ := inOrder_faults hall
        obtain ⟨bs, xs, hys, rfl, hxs⟩ := List.map_eq_append_iff.mp hmap
        obtain ⟨x, as, rfl, rfl, rfl⟩ := List.map_eq_cons_iff.mp hxs
        refine ⟨bs, x, as, hlogic, hys ▸ hv, fun he => absurd he hne, fun p hp => ?_, t', hr⟩
        exact hbefore _ (List.mem_map_of_mem hp)
      · exfalso
        have ht' : compileObject (.obj fs) (((compileMembers fs).lookup "clauses".toList).getD []) =
            .error (.other t) := ht
        rw [hnode, if_pos hjoin, hmember] at ht'
        have hquery : (match v with
            | .arr (_ :: _) => do
              let cs ← inOrder (((compileMembers fs).lookup "clauses".toList).getD [])
              pure (if nodeOp (.obj fs) = "and".toList then Cond.all cs else .any cs)
            | _ => .error (.query ("'".toList ++ nodeOp (.obj fs)
                ++ "' needs a non-empty clauses array".toList))) = .error (.other t) := ht'
        split at hquery
        · exact harr ⟨_, _, rfl⟩
        · cases hquery
    · have hjoin : ¬(nodeOp (.obj fs) = "and".toList ∨ nodeOp (.obj fs) = "or".toList) := by
        rw [hisNot]
        decide
      obtain ⟨t, ht⟩ := h
      by_cases harr : ∃ y, v = .arr [y]
      · obtain ⟨y, rfl⟩ := harr
        rw [compileNode_obj hv, hnode, if_neg hjoin, if_pos hisNot, hmember] at ht
        exact ⟨[], y, [], hlogic, hv, fun _ => ⟨rfl, rfl⟩, List.forall_mem_nil _,
          Faults.of_bind (fun _ => queryOnly_ok _) ht⟩
      · exfalso
        have ht' : compileObject (.obj fs) (((compileMembers fs).lookup "clauses".toList).getD []) =
            .error (.other t) := ht
        rw [hnode, if_neg hjoin, if_pos hisNot, hmember] at ht'
        have hquery : (match v, ((compileMembers fs).lookup "clauses".toList).getD [] with
            | .arr [_], [r] => do
              let c ← r
              pure (Cond.neg c)
            | _, _ => .error (.query "'not' needs exactly one clause".toList)) =
              .error (.other t) := ht'
        split at hquery
        · exact harr ⟨_, rfl⟩
        · cases hquery
  · exfalso
    obtain ⟨t, ht⟩ := h
    have ht' : compileObject (.obj fs) (((compileMembers fs).lookup "clauses".toList).getD []) =
        .error (.other t) := ht
    rw [compileObject_eq hopv, if_neg fun hjoin => hlogic (logical_cases.mpr (Or.inl hjoin)),
      if_neg fun hnot => hlogic (logical_cases.mpr (Or.inr hnot))] at ht'
    exact (compileLeaf_queryOnly hlogic htyped).map Cond.leaf t ht'

/-- **Every fault comes from a node that is reached without its members.** -/
theorem compileNode_fault (j : Json) (h : Faults (compileNode j)) :
    ∃ node, Reached j node ∧ ¬MembersTyped node := by
  induction hn : sizeOf j using Nat.strong_induction_on generalizing j with
  | _ n ih =>
    subst hn
    by_cases htyped : MembersTyped j
    · cases j with
      | obj fs =>
        obtain ⟨before, x, after, hop, hclauses, hnot, hbefore, hx⟩ := faults_of_clause htyped h
        have hlt : sizeOf x < sizeOf (Json.obj fs) := by
          have h₁ := sizeOf_lt_of_lookup hclauses
          have h₂ : sizeOf x < sizeOf (before ++ x :: after) := List.sizeOf_lt_of_mem (by simp)
          simp at h₁ ⊢
          omega
        obtain ⟨node, hreached, hbad⟩ := ih _ hlt x hx rfl
        have hstep : Reached (.obj fs) x := .clause .root hop hclauses hnot hbefore
        exact ⟨node, hstep.trans hreached, hbad⟩
      | null => obtain ⟨t, ht⟩ := h; cases ht
      | bool b => obtain ⟨t, ht⟩ := h; cases ht
      | int i => obtain ⟨t, ht⟩ := h; cases ht
      | float b n d => obtain ⟨t, ht⟩ := h; cases ht
      | str s => obtain ⟨t, ht⟩ := h; cases ht
      | arr items => obtain ⟨t, ht⟩ := h; cases ht
    · exact ⟨j, .root, htyped⟩

/-- **The compiler returns or throws a `QueryError`**, exactly on an empty filter and on one whose
nodes have the members they read, as far as the compiler comes. -/
theorem compileFilter_queryOnly_iff (ast : Json) :
    ((∃ c, compileFilter ast = .ok c) ∨ ∃ what, compileFilter ast = .error (.query what)) ↔
      isEmptyAst ast = true ∨ ∀ node, Reached ast node → MembersTyped node := by
  have hcases : ((∃ c, compileFilter ast = .ok c) ∨
      ∃ what, compileFilter ast = .error (.query what)) ↔ ¬Faults (compileFilter ast) := by
    constructor
    · rintro (⟨c, hc⟩ | ⟨what, hw⟩) ⟨t, ht⟩
      · rw [hc] at ht
        cases ht
      · rw [hw] at ht
        cases ht
    · intro hno
      cases h : compileFilter ast with
      | ok c => exact Or.inl ⟨c, rfl⟩
      | error e =>
        cases e with
        | query what => exact Or.inr ⟨what, rfl⟩
        | other t => exact absurd ⟨t, h⟩ hno
  rw [hcases]
  unfold compileFilter
  by_cases hempty : isEmptyAst ast = true
  · rw [if_pos hempty]
    exact ⟨fun _ => Or.inl hempty, fun _ ⟨t, ht⟩ => by cases ht⟩
  · rw [if_neg hempty]
    constructor
    · intro hno
      refine Or.inr fun node hnode => ?_
      by_contra hbad
      exact hno (hnode.faults (compileNode_faults hbad))
    · rintro (h | h) hfault
      · exact hempty h
      · obtain ⟨node, hnode, hbad⟩ := compileNode_fault ast hfault
        exact hbad (h node hnode)

/-- An operator that is a number is an exception of the JSON library. -/
theorem numeric_operator_faults : ¬∀ ast, (∃ c, compileFilter ast = .ok c) ∨
    ∃ what, compileFilter ast = .error (.query what) := by
  intro h
  rcases h (.obj [("op".toList, .int 1)]) with ⟨c, hc⟩ | ⟨what, hw⟩
  · cases hc
  · cases hw

end StarBase.Query
