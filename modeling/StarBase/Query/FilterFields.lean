import Mathlib.Data.List.Induction
import Mathlib.Data.List.Nodup
import StarBase.Query.Filter

/-!
# The fields of a filter

`filter_fields` and `compile_filter` are two recursions over one document. On a filter that
compiles they classify every node alike: the fields collected are those of the comparison leaves,
each once, at its first occurrence.
-/

namespace StarBase.Query

open Extract Names

/-! ### First occurrences -/

section FirstOccurrences

variable {α : Type} [DecidableEq α]

/-- `named` lists the members of `xs`, each once, in the order of first occurrence. -/
structure FirstOccurrences (xs named : List α) : Prop where
  nodup : named.Nodup
  mem : ∀ a, a ∈ named ↔ a ∈ xs
  inOrder : named.Pairwise (fun a b => xs.idxOf a < xs.idxOf b)

def addNew (out : List α) (a : α) : List α := if a ∈ out then out else out ++ [a]

omit [DecidableEq α] in
theorem FirstOccurrences.nil [DecidableEq α] : FirstOccurrences ([] : List α) [] :=
  ⟨List.nodup_nil, fun _ => Iff.rfl, List.Pairwise.nil⟩

theorem FirstOccurrences.addNew {xs named : List α} (h : FirstOccurrences xs named) (a : α) :
    FirstOccurrences (xs ++ [a]) (addNew named a) := by
  -- what stood before keeps its place
  have hplace : ∀ b ∈ named, (xs ++ [a]).idxOf b = xs.idxOf b := fun b hb =>
    List.idxOf_append_of_mem ((h.mem b).mp hb)
  have horder : named.Pairwise (fun b c => (xs ++ [a]).idxOf b < (xs ++ [a]).idxOf c) :=
    h.inOrder.imp_of_mem fun hb hc hlt => by rwa [hplace _ hb, hplace _ hc]
  unfold Query.addNew
  by_cases ha : a ∈ named
  · rw [if_pos ha]
    refine ⟨h.nodup, fun b => ?_, horder⟩
    rw [List.mem_append, List.mem_singleton, h.mem]
    constructor
    · exact Or.inl
    · rintro (hb | rfl)
      · exact hb
      · exact (h.mem b).mp ha
  · rw [if_neg ha]
    have hnot : a ∉ xs := fun hin => ha ((h.mem a).mpr hin)
    refine ⟨?_, fun b => ?_, ?_⟩
    · refine List.nodup_append.mpr ⟨h.nodup, List.nodup_singleton _, fun b hb c hc => ?_⟩
      rintro rfl
      exact ha (List.mem_singleton.mp hc ▸ hb)
    · rw [List.mem_append, List.mem_append, h.mem]
    · refine List.pairwise_append.mpr ⟨horder, List.pairwise_singleton _ _, fun b hb c hc => ?_⟩
      rw [List.mem_singleton.mp hc, hplace b hb, List.idxOf_append_of_notMem hnot]
      have hlt := List.idxOf_lt_length_of_mem ((h.mem b).mp hb)
      omega

theorem foldl_addNew (xs : List α) : FirstOccurrences xs (xs.foldl addNew []) := by
  induction xs using List.reverseRecOn with
  | nil => exact .nil
  | append_singleton xs a ih =>
    rw [List.foldl_append]
    exact ih.addNew a

end FirstOccurrences

/-! ### The comparison leaves -/

/-- The field a comparison leaf was compiled for. -/
def Leaf.field? : Leaf → Option Str
  | .isNull field _ => some field
  | .compare field _ _ => some field
  | .isIn field _ => some field
  | .between field _ _ => some field
  | .object _ _ => some "object".toList
  | .keywordPresent _ _ => none
  | .keyword _ _ _ => none
  | .cone _ _ _ => none
  | .tagged _ _ => none
  | .inCollection _ => none

mutual

/-- The leaves, from left to right. -/
def Cond.leaves : Cond → List Leaf
  | .always => []
  | .leaf l => [l]
  | .all cs => leavesOf cs
  | .any cs => leavesOf cs
  | .neg c => c.leaves

def leavesOf : List Cond → List Leaf
  | [] => []
  | c :: cs => c.leaves ++ leavesOf cs

end

/-- The fields of the comparisons, from left to right. -/
def Cond.comparedFields (c : Cond) : List Str := c.leaves.filterMap Leaf.field?

theorem leavesOf_eq (cs : List Cond) : leavesOf cs = cs.flatMap Cond.leaves := by
  induction cs with
  | nil => rfl
  | cons c cs ih =>
    show c.leaves ++ leavesOf cs = _
    rw [ih]
    rfl

theorem allowlisted_not_keyword {field : Str} (h : "keyword:".toList.isPrefixOf field = true) :
    fields.lookup field = none := by
  have hall : ∀ f ∈ fields, "keyword:".toList.isPrefixOf f.1 = false := by decide
  rw [List.lookup_eq_none_iff]
  intro f hf
  rw [bne_iff_ne]
  rintro rfl
  rw [hall f hf] at h
  cases h

/-- A header-card predicate compares no column. -/
theorem compileKeyword_field {field : Str} {node : Json} {l : Leaf}
    (h : compileKeyword field node = .ok l) : l.field? = none := by
  unfold compileKeyword at h
  dsimp only at h
  split at h
  · cases h
  · obtain ⟨op, -, h⟩ := compile_bind_ok_iff.mp h
    split at h
    · cases h
      rfl
    · split at h
      · cases h
      · cases h
      · split at h
        · cases h
          rfl
        · obtain ⟨lit, -, h⟩ := compile_bind_ok_iff.mp h
          cases h
          rfl

theorem compileOperator_field {field op : Str} {type : FieldType} {node : Json} {l : Leaf}
    (h : compileOperator field type op node = .ok l) : l.field? = some field := by
  unfold compileOperator at h
  split at h
  · obtain ⟨v, -, h⟩ := compile_bind_ok_iff.mp h
    split at h
    · obtain ⟨vs, -, h⟩ := compile_bind_ok_iff.mp h
      cases h
      rfl
    · cases h
  · split at h
    · obtain ⟨v, -, h⟩ := compile_bind_ok_iff.mp h
      split at h
      · obtain ⟨lo, -, h⟩ := compile_bind_ok_iff.mp h
        obtain ⟨hi, -, h⟩ := compile_bind_ok_iff.mp h
        cases h
        rfl
      · cases h
    · split at h
      · cases h
      · cases h
      · obtain ⟨lit, -, h⟩ := compile_bind_ok_iff.mp h
        cases h
        rfl

theorem objectNames_field {field op : Str} {node : Json} {names : List Str}
    (h : objectNames field op node = some names) : field = "object".toList := by
  unfold objectNames at h
  split at h
  · split at h
    · next hobj => exact hobj.1
    · cases h
  · cases h

/-- A comparison that compiles names its field, and its leaf is on that field if it is
allowlisted and on no column otherwise. -/
theorem compileComparison_field {node : Json} {l : Leaf} (h : compileComparison node = .ok l) :
    ∃ field, node.at? "field".toList = some (.str field) ∧
      l.field? = if (fields.lookup field).isSome then some field else none := by
  obtain ⟨fieldJ, hmember, h⟩ := compile_bind_ok_iff.mp h
  obtain ⟨field, hstr, h⟩ := compile_bind_ok_iff.mp h
  have hat : node.at? "field".toList = some (.str field) := by
    unfold member at hmember
    unfold requireString at hstr
    split at hmember
    · next v hv =>
      cases hmember
      split at hstr
      · cases hstr
        exact hv
      · cases hstr
    · cases hmember
  refine ⟨field, hat, ?_⟩
  split at h
  · next hkw =>
    rw [allowlisted_not_keyword hkw, compileKeyword_field h]
    rfl
  · split at h
    · cases h
    · next type htype =>
      rw [htype]
      show l.field? = some field
      obtain ⟨op, -, h⟩ := compile_bind_ok_iff.mp h
      split at h
      · cases h
        rfl
      · split at h
        · cases h
          rfl
        · split at h
          · next names hnames =>
            cases h
            rw [objectNames_field hnames]
            rfl
          · exact compileOperator_field h

theorem compileCone_field {node : Json} {l : Leaf} (h : compileCone node = .ok l) :
    l.field? = none := by
  unfold compileCone at h
  split at h
  · obtain ⟨ra, -, h⟩ := compile_bind_ok_iff.mp h
    obtain ⟨dec, -, h⟩ := compile_bind_ok_iff.mp h
    obtain ⟨r, -, h⟩ := compile_bind_ok_iff.mp h
    split at h
    · cases h
    · cases h
      rfl
  · cases h

/-! ### One node -/

theorem comparedFields_all (cs : List Cond) :
    (leavesOf cs).filterMap Leaf.field? = cs.flatMap Cond.comparedFields := by
  rw [leavesOf_eq, List.filterMap_flatMap]
  rfl

abbrev isLogic (op : Str) : Prop := op = "and".toList ∨ op = "or".toList ∨ op = "not".toList

/-- The predicates that are on no column of the allowlist. -/
abbrev isMembership (op : Str) : Prop :=
  op = "cone".toList ∨ op = "tagged".toList ∨ op = "untagged".toList ∨ op = "in_collection".toList

/-- What a node that compiles is: a connective of its clauses, a predicate on no column, or a
comparison. -/
inductive NodeCompiled (node : Json) (clauses : List (Compile Cond)) (op : Str) (c : Cond) : Prop
  | logic (cs : List Cond) : isLogic op → inOrder clauses = .ok cs →
      c.comparedFields = cs.flatMap Cond.comparedFields → NodeCompiled node clauses op c
  | membership : ¬ isLogic op → isMembership op → c.comparedFields = [] →
      NodeCompiled node clauses op c
  | comparison (l : Leaf) : ¬ isLogic op → ¬ isMembership op → compileComparison node = .ok l →
      c.comparedFields = l.field?.toList → NodeCompiled node clauses op c

theorem comparedFields_leaf (l : Leaf) : (Cond.leaf l).comparedFields = l.field?.toList := by
  show [l].filterMap Leaf.field? = _
  rw [List.filterMap_cons]
  cases l.field? <;> rfl

theorem compileObject_cases {node : Json} {clauses : List (Compile Cond)} {c : Cond}
    (h : compileObject node clauses = .ok c) :
    ∃ op, node.valueStr "op".toList [] = .ok op ∧ NodeCompiled node clauses op c := by
  obtain ⟨op, hop, h⟩ := compile_bind_ok_iff.mp h
  refine ⟨op, liftJson_eq_ok_iff.mp hop, ?_⟩
  by_cases hjoin : op = "and".toList ∨ op = "or".toList
  · rw [if_pos hjoin] at h
    obtain ⟨v, -, h⟩ := compile_bind_ok_iff.mp h
    split at h
    · obtain ⟨cs, hcs, h⟩ := compile_bind_ok_iff.mp h
      refine .logic cs (hjoin.imp_right Or.inl) hcs ?_
      by_cases hand : op = "and".toList
      · rw [if_pos hand] at h
        cases h
        exact comparedFields_all cs
      · rw [if_neg hand] at h
        cases h
        exact comparedFields_all cs
    · cases h
  rw [if_neg hjoin] at h
  by_cases hnot : op = "not".toList
  · rw [if_pos hnot] at h
    obtain ⟨v, -, h⟩ := compile_bind_ok_iff.mp h
    split at h
    · obtain ⟨c', hc', h⟩ := compile_bind_ok_iff.mp h
      cases h
      refine .logic [c'] (.inr (.inr hnot)) ?_ ?_
      · exact compile_bind_ok_iff.mpr ⟨c', hc', rfl⟩
      · rw [List.flatMap_singleton]
        rfl
    · cases h
  rw [if_neg hnot] at h
  have hlogic : ¬ isLogic op := by
    rintro (ha | ho | hn)
    · exact hjoin (.inl ha)
    · exact hjoin (.inr ho)
    · exact hnot hn
  by_cases hcone : op = "cone".toList
  · rw [if_pos hcone] at h
    obtain ⟨l, hl, rfl⟩ := compile_map_ok h
    refine .membership hlogic (.inl hcone) ?_
    rw [comparedFields_leaf, compileCone_field hl]
    rfl
  rw [if_neg hcone] at h
  by_cases htag : op = "tagged".toList ∨ op = "untagged".toList
  · rw [if_pos htag] at h
    obtain ⟨l, hl, rfl⟩ := compile_map_ok h
    obtain ⟨ref, -, hl⟩ := compile_bind_ok_iff.mp hl
    cases hl
    exact .membership hlogic (.inr (htag.imp_right Or.inl)) rfl
  rw [if_neg htag] at h
  by_cases hcoll : op = "in_collection".toList
  · rw [if_pos hcoll] at h
    obtain ⟨l, hl, rfl⟩ := compile_map_ok h
    obtain ⟨ref, -, hl⟩ := compile_bind_ok_iff.mp hl
    cases hl
    exact .membership hlogic (.inr (.inr (.inr hcoll))) rfl
  rw [if_neg hcoll] at h
  obtain ⟨l, hl, rfl⟩ := compile_map_ok h
  refine .comparison l hlogic ?_ hl (comparedFields_leaf l)
  rintro (hc | ht | hu | hi)
  · exact hcone hc
  · exact htag (.inl ht)
  · exact htag (.inr hu)
  · exact hcoll hi

/-! ### The two recursions -/

/-- Every field that is compared is allowlisted, so that only a field already collected is left
out. -/
theorem addField_toList {l : Leaf} {field : Str} (out : List Str)
    (h : l.field? = if (fields.lookup field).isSome then some field else none) :
    addField out field = l.field?.toList.foldl addNew out := by
  rw [h]
  unfold addField
  by_cases hs : (fields.lookup field).isSome = true
  · rw [if_pos hs]
    show _ = addNew out field
    unfold addNew
    by_cases hin : field ∈ out
    · rw [if_neg (fun hc => hc.2 hin), if_pos hin]
    · rw [if_pos ⟨hs, hin⟩, if_neg hin]
  · rw [if_neg hs, if_neg (fun hc => hs hc.1)]
    rfl

theorem foldlM_collect {rs : List Json} {cs : List Cond}
    (hcs : inOrder (compileItems rs) = .ok cs)
    (hnode : ∀ r ∈ rs, ∀ c, compileNode r = .ok c →
      ∀ out, collectNode r out = .ok (c.comparedFields.foldl addNew out)) (out : List Str) :
    (collectItems rs).foldlM (fun acc collect => collect acc) out =
      .ok ((cs.flatMap Cond.comparedFields).foldl addNew out) := by
  induction rs generalizing cs out with
  | nil =>
    cases hcs
    rfl
  | cons r rs ih =>
    obtain ⟨c, hc, hcs⟩ := compile_bind_ok_iff.mp hcs
    obtain ⟨cs', hcs', hcs⟩ := compile_bind_ok_iff.mp hcs
    cases hcs
    show (collectNode r :: collectItems rs).foldlM (fun acc collect => collect acc) out = _
    rw [List.foldlM_cons, hnode r (by simp) c hc, List.flatMap_cons, List.foldl_append]
    exact ih hcs' (fun r' hr' => hnode r' (List.mem_cons_of_mem _ hr')) _

/-- **One traversal**: on a node that compiles, the collector adds the fields of the comparisons,
in their order. -/
theorem collectNode_eq (j : Json) : ∀ c, compileNode j = .ok c →
    ∀ out, collectNode j out = .ok (c.comparedFields.foldl addNew out) := by
  induction hn : sizeOf j using Nat.strong_induction_on generalizing j with
  | _ n ih =>
    subst hn
    intro c hc out
    cases j with
    | obj fs =>
      obtain ⟨op, hop, hnode⟩ := compileObject_cases hc
      show collectObject (.obj fs) _ out = _
      unfold collectObject
      rw [hop]
      show (if isLogic op then _ else if isMembership op then _ else _) = _
      cases hnode with
      | logic cs hlogic hcs hfields =>
        rw [if_pos hlogic, hfields, lookup_collectMembers]
        rw [lookup_compileMembers] at hcs
        -- the clauses collected are those compiled, elements of one array
        cases hv : fs.lookup "clauses".toList with
        | none =>
          rw [hv] at hcs
          cases hcs
          rfl
        | some v =>
          rw [hv] at hcs
          cases v with
          | arr items =>
            refine foldlM_collect hcs (fun item hitem ci hci out => ?_) out
            have h₁ := sizeOf_lt_of_lookup hv
            have h₂ := List.sizeOf_lt_of_mem hitem
            refine ih _ ?_ item rfl ci hci out
            simp only [Json.arr.sizeOf_spec, Json.obj.sizeOf_spec] at h₁ ⊢
            omega
          | null => cases hcs; rfl
          | bool b => cases hcs; rfl
          | int i => cases hcs; rfl
          | float neg num den => cases hcs; rfl
          | str s => cases hcs; rfl
          | obj fs' => cases hcs; rfl
      | membership hlogic hmember hfields =>
        rw [if_neg hlogic, if_pos hmember, hfields]
        rfl
      | comparison l hlogic hmember hl hfields =>
        obtain ⟨field, hat, hfield⟩ := compileComparison_field hl
        rw [if_neg hlogic, if_neg hmember, hfields, hat, ← addField_toList out hfield]
        rfl
    | null => cases hc
    | bool b => cases hc
    | int i => cases hc
    | float neg num den => cases hc
    | str s => cases hc
    | arr items => cases hc

theorem filterFields_eq {ast : Json} {c : Cond} (h : compileFilter ast = .ok c) :
    filterFields ast = .ok (c.comparedFields.foldl addNew []) := by
  unfold filterFields
  split
  · exact collectNode_eq _ c h []
  · next hne =>
    cases ast with
    | obj fs =>
      cases fs with
      | nil =>
        cases h
        rfl
      | cons f fs => exact absurd rfl (hne f fs)
    | null =>
      cases h
      rfl
    | bool b => cases h
    | int i => cases h
    | float neg num den => cases h
    | str s => cases h
    | arr items => cases h

/-- On a filter that compiles, `filter_fields` does not throw. -/
theorem filterFields_ok {ast : Json} {c : Cond} (h : compileFilter ast = .ok c) :
    ∃ fs, filterFields ast = .ok fs := ⟨_, filterFields_eq h⟩

/-- `gain = 100 AND NOT (keyword:GAIN IS NOT NULL OR gain IS NULL)`. -/
def nestedFilter : Json :=
  .obj [("op".toList, .str "and".toList), ("clauses".toList, .arr [
    .obj [("field".toList, .str "gain".toList), ("value".toList, .int 100)],
    .obj [("op".toList, .str "not".toList), ("clauses".toList, .arr [
      .obj [("op".toList, .str "or".toList), ("clauses".toList, .arr [
        .obj [("field".toList, .str "keyword:GAIN".toList), ("op".toList, .str "notnull".toList)],
        .obj [("field".toList, .str "gain".toList), ("op".toList, .str "isnull".toList)]])]])]])]

def nestedCond : Cond :=
  .all [.leaf (.compare "gain".toList "=".toList (.num (.int 100))),
    .neg (.any [.leaf (.keywordPresent "GAIN".toList false),
      .leaf (.isNull "gain".toList false)])]

/-- **PROVED: the collector agrees with the compiler.** On every filter that compiles the fields
listed are those of the comparison leaves, each once, in the order of first occurrence from left to
right. -/
theorem filterFields_compared {ast : Json} {c : Cond} (h : compileFilter ast = .ok c) :
    ∃ named, filterFields ast = .ok named ∧ FirstOccurrences c.comparedFields named ∧
      ∀ field, field ∈ named ↔ ∃ l ∈ c.leaves, l.field? = some field := by
  have hfirst := foldl_addNew c.comparedFields
  refine ⟨_, filterFields_eq h, hfirst, fun field => ?_⟩
  rw [hfirst.mem]
  exact List.mem_filterMap

/-- A connective over a repeated field, a header card and a cone. -/
theorem filterFields_nested :
    ∃ named, filterFields nestedFilter = .ok named ∧
      FirstOccurrences nestedCond.comparedFields named ∧
      ∀ field, field ∈ named ↔ ∃ l ∈ nestedCond.leaves, l.field? = some field :=
  filterFields_compared (by rfl)

end StarBase.Query
