import Mathlib.Data.Rat.Floor
import StarBase.Extract.Number
import StarBase.Names.Canon

/-!
# The filter compiler

`compile_filter` turns a JSON filter AST into a boolean expression over the columns of `v_frames`.
Here the expression is a tree: `Cond` over `Leaf` predicates.

* `compileNode`, `compileFilter` — the compiler, with its errors;
* `filterFields` — the fields a filter names;
* `compileSort` — the sort specification;
* `Cond.eval` — SQL's three-valued logic over given truth values of the leaves.

A document may be nested to any depth; the compiler's stack is not modelled.
-/

namespace StarBase.Query

open Extract Names

/-! ### JSON numbers and exceptions -/

/-- The exceptions of the compiler: a `QueryError`, or one of the JSON library. -/
inductive QueryFault
  | query (what : Str)
  | other (e : Thrown)
  deriving DecidableEq, Repr

abbrev Compile (α : Type) := Except QueryFault α

def liftJson {α : Type} (r : Except Thrown α) : Compile α := r.mapError .other

/-- A JSON number; a floating-point one by its sign bit and its exact size. -/
inductive JsonNum
  | int (i : Int)
  | float (neg : Bool) (num den : ℕ)
  deriving DecidableEq, Repr

def JsonNum.value : JsonNum → ℚ
  | .int i => i
  | .float neg num den => if neg then -(num / den) else num / den

/-- The sign bit of `get<double>()`. -/
def JsonNum.signBit : JsonNum → Bool
  | .int i => decide (i < 0)
  | .float neg _ _ => neg

/-- `is_number()`, with the number. -/
def num? : Json → Option JsonNum
  | .int i => some (.int i)
  | .float neg num den => some (.float neg num den)
  | _ => none

/-- `at(key)` of an object. -/
def member (node : Json) (key : Str) : Compile Json :=
  match node.at? key with
  | some v => .ok v
  | none => .error (.other (.json ("[json.exception.out_of_range.403] key '".toList ++ key
      ++ "' not found".toList)))

/-- `get<double>()`. -/
def getDouble (j : Json) : Compile JsonNum :=
  match num? j with
  | some n => .ok n
  | none => .error (.other (Json.typeError "number".toList j))

/-! ### Fields, operators and literals -/

inductive FieldType
  | str
  | num
  | date
  deriving DecidableEq, Repr

/-- The queryable columns of `v_frames` and their types. -/
def fields : List (Str × FieldType) :=
  [ ("image_type".toList, .str), ("object".toList, .str), ("object_canonical".toList, .str),
    ("filter".toList, .str),
    ("rig".toList, .str), ("camera".toList, .str), ("site".toList, .str),
    ("bucket".toList, .str), ("file_status".toList, .str), ("root_label".toList, .str),
    ("pier_side".toList, .str), ("row_order".toList, .str),
    ("session_night".toList, .date), ("date_obs_utc".toList, .date),
    ("exposure_s".toList, .num), ("gain".toList, .num), ("offset_adu".toList, .num),
    ("binx".toList, .num), ("biny".toList, .num), ("ccd_temp_c".toList, .num),
    ("set_temp_c".toList, .num), ("airmass".toList, .num), ("sqm_mag_arcsec2".toList, .num),
    ("ra_deg".toList, .num), ("dec_deg".toList, .num), ("focus_pos".toList, .num),
    ("rotator_deg".toList, .num), ("guide_rms_arcsec".toList, .num),
    ("naxis1".toList, .num), ("naxis2".toList, .num) ]

/-- The binary comparison operators an AST may name. -/
def binops : List (Str × Str) :=
  [ ("eq".toList, "=".toList), ("ne".toList, "<>".toList), ("lt".toList, "<".toList),
    ("lte".toList, "<=".toList), ("gt".toList, ">".toList), ("gte".toList, ">=".toList),
    ("like".toList, "LIKE".toList) ]

def requireString (v : Json) (what : Str) : Compile Str :=
  match v with
  | .str s => .ok s
  | _ => .error (.query (what ++ " must be a string".toList))

/-- A value as it enters the SQL text: a number, a numeric string as it was given, a quoted string,
or a number quoted. -/
inductive Lit
  | num (n : JsonNum)
  | numText (s : Str)
  | text (s : Str)
  | quotedNum (n : JsonNum)
  deriving DecidableEq, Repr

/-- `stod` reads the whole string. -/
def isNumeric (s : Str) : Bool :=
  match stod s with
  | .ok (_, rest) => rest = []
  | .error _ => false

/-- One scalar value for a column of the given type. -/
def literal (t : FieldType) (v : Json) : Compile Lit :=
  match t, v, num? v with
  | .num, _, some n => .ok (.num n)
  | .num, .str s, none =>
    if isNumeric s then .ok (.numText s)
    else .error (.query ("numeric field needs a number, got '".toList ++ s ++ "'".toList))
  | .num, _, none => .error (.query "numeric field needs a number".toList)
  | _, .str s, _ => .ok (.text s)
  | _, _, some n => .ok (.quotedNum n)
  | _, _, none => .error (.query "value must be a string for this field".toList)

/-! ### Leaves -/

/-- A tag or a collection, by id or by name. -/
inductive SetRef
  | id (n : JsonNum)
  | name (s : Str)
  deriving DecidableEq, Repr

/-- A predicate on one row of `v_frames`. -/
inductive Leaf
  | isNull (field : Str) (negated : Bool)
  | compare (field sqlOp : Str) (v : Lit)
  | isIn (field : Str) (vs : List Lit)
  | between (field : Str) (lo hi : Lit)
  | object (sqlLike : Bool) (names : List Str)
  | keywordPresent (keyword : Str) (negated : Bool)
  | keyword (keyword sqlOp : Str) (v : Lit)
  | cone (ra dec radius : JsonNum)
  | tagged (tag : SetRef) (negated : Bool)
  | inCollection (collection : SetRef)
  deriving DecidableEq, Repr

/-- A header-card predicate. -/
def compileKeyword (field : Str) (node : Json) : Compile Leaf := do
  let kw := field.drop "keyword:".toList.length
  if kw = [] then .error (.query "empty keyword name".toList)
  else
    let op ← liftJson (node.valueStr "op".toList "eq".toList)
    if op = "isnull".toList ∨ op = "notnull".toList then
      pure (.keywordPresent kw (decide (op = "isnull".toList)))
    else
      match binops.lookup op, node.at? "value".toList with
      | none, _ =>
        .error (.query ("unsupported keyword operator '".toList ++ op ++ "'".toList))
      | some _, none => .error (.query "keyword predicate needs a value".toList)
      | some sql, some v =>
        match num? v with
        | some n => pure (.keyword kw sql (.num n))
        | none => do
          let lit ← literal .str v
          pure (.keyword kw sql lit)

/-- A cone search; the bounding box and the distance are functions of the three numbers. -/
def compileCone (node : Json) : Compile Leaf :=
  match node.at? "ra".toList, node.at? "dec".toList, node.at? "radius_deg".toList with
  | some raJ, some decJ, some rJ => do
    let ra ← getDouble raJ
    let dec ← getDouble decJ
    let r ← getDouble rJ
    if r.value ≤ 0 ∨ 180 < r.value then .error (.query "cone radius_deg out of range".toList)
    else pure (.cone ra dec r)
  | _, _, _ => .error (.query "cone needs ra, dec, and radius_deg".toList)

/-- The value of a membership predicate, with the texts of its two errors. -/
def compileSetRef (node : Json) (missing wrong : Str) : Compile SetRef :=
  match node.at? "value".toList with
  | none => .error (.query missing)
  | some v =>
    match num? v, v with
    | some n, _ => .ok (.id n)
    | none, .str s => .ok (.name s)
    | none, _ => .error (.query wrong)

def compileTagged (node : Json) (negate : Bool) : Compile Leaf := do
  let ref ← compileSetRef node "tagged needs a tag name or id".toList
    "tag value must be a name or id".toList
  pure (.tagged ref negate)

def compileInCollection (node : Json) : Compile Leaf := do
  let ref ← compileSetRef node "in_collection needs a name or id".toList
    "collection value must be a name or id".toList
  pure (.inCollection ref)

/-- Object search is catalog-aware: a string value is expanded to its equivalent designations. -/
def objectNames (field op : Str) (node : Json) : Option (List Str) :=
  match node.at? "value".toList with
  | some (.str s) =>
    if field = "object".toList ∧ (op = "eq".toList ∨ op = "like".toList) then
      some (designations s)
    else none
  | _ => none

/-- The operator of a comparison, once the field is known and neither a null test nor an object
search. -/
def compileOperator (field : Str) (type : FieldType) (op : Str) (node : Json) : Compile Leaf :=
  if op = "in".toList then do
    let v ← member node "value".toList
    match v with
    | .arr (x :: xs) => do
      let vs ← (x :: xs).mapM (literal type)
      pure (.isIn field vs)
    | _ => .error (.query "'in' needs a non-empty array".toList)
  else if op = "between".toList then do
    let v ← member node "value".toList
    match v with
    | .arr [lo, hi] => do
      let l ← literal type lo
      let h ← literal type hi
      pure (.between field l h)
    | _ => .error (.query "'between' needs [lo, hi]".toList)
  else
    match binops.lookup op, node.at? "value".toList with
    | none, _ => .error (.query ("unsupported operator '".toList ++ op ++ "'".toList))
    | some _, none => .error (.query ("operator '".toList ++ op ++ "' needs a value".toList))
    | some sql, some v => do
      let lit ← literal type v
      pure (.compare field sql lit)

def compileComparison (node : Json) : Compile Leaf := do
  let fieldJ ← member node "field".toList
  let field ← requireString fieldJ "field".toList
  if "keyword:".toList.isPrefixOf field then compileKeyword field node
  else
    match fields.lookup field with
    | none => .error (.query ("unknown field '".toList ++ field ++ "'".toList))
    | some type => do
      let op ← liftJson (node.valueStr "op".toList "eq".toList)
      if op = "isnull".toList then pure (.isNull field false)
      else if op = "notnull".toList then pure (.isNull field true)
      else
        match objectNames field op node with
        | some names => pure (.object (decide (op = "like".toList)) names)
        | none => compileOperator field type op node

/-! ### Nodes -/

/-- A boolean expression over the leaves; `always` is `1=1`. -/
inductive Cond
  | always
  | leaf (l : Leaf)
  | all (cs : List Cond)
  | any (cs : List Cond)
  | neg (c : Cond)

/-- The results in order, or the first exception. -/
def inOrder {α : Type} : List (Compile α) → Compile (List α)
  | [] => .ok []
  | r :: rs => do
    let a ← r
    let as ← inOrder rs
    pure (a :: as)

/-- A node that is an object, with what its clauses compile to. -/
def compileObject (node : Json) (clauses : List (Compile Cond)) : Compile Cond := do
  let op ← liftJson (node.valueStr "op".toList [])
  if op = "and".toList ∨ op = "or".toList then
    let v ← member node "clauses".toList
    match v with
    | .arr (_ :: _) => do
      let cs ← inOrder clauses
      pure (if op = "and".toList then .all cs else .any cs)
    | _ => .error (.query ("'".toList ++ op ++ "' needs a non-empty clauses array".toList))
  else if op = "not".toList then
    let v ← member node "clauses".toList
    match v, clauses with
    | .arr [_], [r] => do
      let c ← r
      pure (.neg c)
    | _, _ => .error (.query "'not' needs exactly one clause".toList)
  else if op = "cone".toList then Cond.leaf <$> compileCone node
  else if op = "tagged".toList ∨ op = "untagged".toList then
    Cond.leaf <$> compileTagged node (decide (op = "untagged".toList))
  else if op = "in_collection".toList then Cond.leaf <$> compileInCollection node
  else Cond.leaf <$> compileComparison node

-- The recursion follows the document: the clauses of a node are the results at the elements of
-- its member `clauses`.
mutual

def compileNode : Json → Compile Cond
  | .obj fs =>
    compileObject (.obj fs) (((compileMembers fs).lookup "clauses".toList).getD [])
  | _ => .error (.query "each filter node must be an object".toList)

def compileMembers : List (Str × Json) → List (Str × List (Compile Cond))
  | [] => []
  | (key, v) :: rest => (key, compileClauses v) :: compileMembers rest

def compileClauses : Json → List (Compile Cond)
  | .arr items => compileItems items
  | _ => []

def compileItems : List Json → List (Compile Cond)
  | [] => []
  | j :: js => compileNode j :: compileItems js

end

/-- `null` or `{}`. -/
def isEmptyAst : Json → Bool
  | .null => true
  | .obj [] => true
  | _ => false

def compileFilter (ast : Json) : Compile Cond :=
  if isEmptyAst ast then .ok .always else compileNode ast

/-! ### The fields of a filter -/

/-- Append a field that is allowlisted and new. -/
def addField (out : List Str) (field : Str) : List Str :=
  if (fields.lookup field).isSome ∧ field ∉ out then out ++ [field] else out

/-- What a node adds to the fields, with what its clauses add. -/
def collectObject (node : Json) (clauses : List (List Str → Except Thrown (List Str)))
    (out : List Str) : Except Thrown (List Str) := do
  let op ← node.valueStr "op".toList []
  if op = "and".toList ∨ op = "or".toList ∨ op = "not".toList then
    clauses.foldlM (fun acc collect => collect acc) out
  else if op = "cone".toList ∨ op = "tagged".toList ∨ op = "untagged".toList ∨
      op = "in_collection".toList then pure out
  else
    match node.at? "field".toList with
    | some (.str field) => pure (addField out field)
    | _ => pure out

mutual

def collectNode : Json → List Str → Except Thrown (List Str)
  | .obj fs =>
    collectObject (.obj fs) (((collectMembers fs).lookup "clauses".toList).getD [])
  | _ => fun out => .ok out

def collectMembers : List (Str × Json) → List (Str × List (List Str → Except Thrown (List Str)))
  | [] => []
  | (key, v) :: rest => (key, collectClauses v) :: collectMembers rest

def collectClauses : Json → List (List Str → Except Thrown (List Str))
  | .arr items => collectItems items
  | _ => []

def collectItems : List Json → List (List Str → Except Thrown (List Str))
  | [] => []
  | j :: js => collectNode j :: collectItems js

end

/-- The distinct allowlisted fields a filter names, in first-seen order. -/
def filterFields (ast : Json) : Except Thrown (List Str) :=
  match ast with
  | .obj (_ :: _) => collectNode ast []
  | _ => .ok []

/-! ### Sorting -/

/-- One sort key: a column, and whether it descends. -/
structure SortKey where
  field : Str
  desc : Bool
  deriving DecidableEq, Repr

def compileSortKey (s : Json) : Compile SortKey := do
  let field ← liftJson (s.valueStr "field".toList [])
  if (fields.lookup field).isNone then
    .error (.query ("cannot sort by '".toList ++ field ++ "'".toList))
  else
    let dir ← liftJson (s.valueStr "dir".toList "asc".toList)
    if lower dir ≠ "asc".toList ∧ lower dir ≠ "desc".toList then
      .error (.query "sort dir must be asc or desc".toList)
    else pure ⟨field, decide (lower dir = "desc".toList)⟩

/-- The sort keys; newest first unless told otherwise. -/
def compileSort (sort : Json) : Compile (List SortKey) :=
  match sort with
  | .arr (s :: ss) => (s :: ss).mapM compileSortKey
  | _ => .ok [⟨"date_obs_utc".toList, true⟩]

/-! ### Three-valued logic -/

/-- `AND`, where `none` is `NULL`. -/
def and3 : Option Bool → Option Bool → Option Bool
  | some false, _ => some false
  | _, some false => some false
  | some true, b => b
  | a, some true => a
  | none, none => none

/-- `OR`. -/
def or3 : Option Bool → Option Bool → Option Bool
  | some true, _ => some true
  | _, some true => some true
  | some false, b => b
  | a, some false => a
  | none, none => none

mutual

/-- The truth of an expression on a row, from those of its leaves. -/
def Cond.eval (truth : Leaf → Option Bool) : Cond → Option Bool
  | .always => some true
  | .leaf l => truth l
  | .all cs => evalAll truth cs
  | .any cs => evalAny truth cs
  | .neg c => (c.eval truth).map not

def evalAll (truth : Leaf → Option Bool) : List Cond → Option Bool
  | [] => some true
  | c :: cs => and3 (c.eval truth) (evalAll truth cs)

def evalAny (truth : Leaf → Option Bool) : List Cond → Option Bool
  | [] => some false
  | c :: cs => or3 (c.eval truth) (evalAny truth cs)

end

/-! ### The two recursions -/

theorem lookup_compileMembers (fs : List (Str × Json)) (key : Str) :
    (compileMembers fs).lookup key = (fs.lookup key).map compileClauses := by
  induction fs with
  | nil => rfl
  | cons f fs ih =>
    obtain ⟨k, v⟩ := f
    show ((k, compileClauses v) :: compileMembers fs).lookup key = _
    rw [List.lookup_cons, List.lookup_cons, ih]
    split <;> rfl

theorem lookup_collectMembers (fs : List (Str × Json)) (key : Str) :
    (collectMembers fs).lookup key = (fs.lookup key).map collectClauses := by
  induction fs with
  | nil => rfl
  | cons f fs ih =>
    obtain ⟨k, v⟩ := f
    show ((k, collectClauses v) :: collectMembers fs).lookup key = _
    rw [List.lookup_cons, List.lookup_cons, ih]
    split <;> rfl

theorem compileItems_eq (items : List Json) : compileItems items = items.map compileNode := by
  induction items with
  | nil => rfl
  | cons j js ih =>
    show compileNode j :: compileItems js = _
    rw [ih]
    rfl

theorem sizeOf_lt_of_lookup {fs : List (Str × Json)} {key : Str} {v : Json}
    (h : fs.lookup key = some v) : sizeOf v < sizeOf fs := by
  induction fs with
  | nil => cases h
  | cons f fs ih =>
    obtain ⟨k, w⟩ := f
    rw [List.lookup_cons] at h
    split at h
    · cases h
      simp
      omega
    · have := ih h
      simp
      omega

theorem compile_bind_ok_iff {α β : Type} {r : Compile α} {f : α → Compile β} {b : β} :
    (r >>= f) = .ok b ↔ ∃ a, r = .ok a ∧ f a = .ok b := by
  cases r with
  | ok a => simp [bind, Except.bind]
  | error e => simp [bind, Except.bind]

theorem compile_map_ok {α β : Type} {f : α → β} {r : Compile α} {b : β} (h : f <$> r = .ok b) :
    ∃ a, r = .ok a ∧ b = f a := by
  cases r with
  | ok a =>
    cases h
    exact ⟨a, rfl, rfl⟩
  | error e => cases h

theorem liftJson_eq_ok_iff {α : Type} {r : Except Thrown α} {a : α} :
    liftJson r = .ok a ↔ r = .ok a := by
  cases r <;> simp [liftJson, Except.mapError]

end StarBase.Query
