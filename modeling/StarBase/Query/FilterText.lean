import StarBase.Extract.Digits
import StarBase.Lib.SqlText
import StarBase.Match.Rules
import StarBase.Query.Filter

/-!
# The text of a filter

`compile_filter` and `compile_sort` return SQL text.  Here is the text of every leaf and node, and
what a server that reads it by the grammar of `Sql` makes of it.

* `Leaf.sql`, `Cond.sql`, `sortSql` — the text;
* `Leaf.tree`, `Cond.tree` — the boolean tree the filter stands for;
* `Cond.reads` — **PROVED**: the items of a filter read as its tree;
* `Cond.scans` — **PROVED**: its text has the tokens of its items.
-/

namespace StarBase.Query

open Sql Extract

/-! ### Numerals -/

/-- The text of a number: a sign, and a digit with digits and points after it. -/
structure Numeral where
  neg : Bool
  digits : Str
  head_digit : ∃ c cs, digits = c :: cs ∧ c.isDigit = true ∧ ∀ d ∈ cs, isNumberChar d = true

def Numeral.text (x : Numeral) : Str := if x.neg then '-' :: x.digits else x.digits

theorem isNumberChar_of_isDigit {c : Char} (h : c.isDigit = true) : isNumberChar c = true := by
  unfold isNumberChar isWordChar
  rw [h, Bool.or_true, Bool.true_or]

/-- `std::to_string` of an integer. -/
def intNumeral (i : Int) : Numeral where
  neg := decide (i < 0)
  digits := natText i.natAbs
  head_digit := by
    obtain ⟨c, cs, hcs⟩ := List.exists_cons_of_ne_nil (natText_ne_nil i.natAbs)
    refine ⟨c, cs, hcs, isDigit_natText (hcs ▸ List.mem_cons_self), fun d hd => ?_⟩
    exact isNumberChar_of_isDigit (isDigit_natText (hcs ▸ List.mem_cons_of_mem c hd))

/-- `std::to_string` of a double that is no negative zero: six digits after the point. -/
def fixedNumeral (d : ℚ) : Numeral where
  neg := decide (d < 0)
  digits := natText ((Rounding.roundHalfEven (|d| * 10 ^ 6)).toNat / 10 ^ 6) ++
    '.' :: padLeft 6 (natText ((Rounding.roundHalfEven (|d| * 10 ^ 6)).toNat % 10 ^ 6))
  head_digit := by
    obtain ⟨c, cs, hcs⟩ := List.exists_cons_of_ne_nil
      (natText_ne_nil ((Rounding.roundHalfEven (|d| * 10 ^ 6)).toNat / 10 ^ 6))
    refine ⟨c, _, by rw [hcs]; rfl, isDigit_natText (hcs ▸ List.mem_cons_self), fun e he => ?_⟩
    rcases List.mem_append.mp he with he | he
    · exact isNumberChar_of_isDigit (isDigit_natText (hcs ▸ List.mem_cons_of_mem c he))
    · rcases List.mem_cons.mp he with rfl | he
      · decide
      · rcases List.mem_append.mp he with he | he
        · rw [List.eq_of_mem_replicate he]
          decide
        · exact isNumberChar_of_isDigit (isDigit_natText he)

/-- `get<double>()`. -/
def JsonNum.double (n : JsonNum) : ℚ := Rounding.binary64 n.value

/-- `std::to_string(get<double>())`; the sign of a negative zero is printed. -/
def JsonNum.fixed (n : JsonNum) : Numeral := { fixedNumeral n.double with neg := n.signBit }

/-- `get<long long>()`. -/
def JsonNum.long : JsonNum → Int
  | .int i => Json.longOfInt i
  | .float neg num den => Json.longOfFloat neg num den

/-- A number in the text: a whole one below 10^15 as an integer. -/
def JsonNum.numeral (n : JsonNum) : Numeral :=
  if n.double = ⌊n.double⌋ ∧ |n.double| < 10 ^ 15 then intNumeral ⌊n.double⌋
  else fixedNumeral n.double

/-! ### The text -/

/-- What the text depends on besides the filter: the escaping of the connection, and the cosine of
an angle in degrees as the library computes it. -/
structure SqlSession where
  escape : Str → Str
  cosDeg : ℚ → ℚ

def joinText (sep : Str) : List Str → Str
  | [] => []
  | [s] => s
  | s :: t :: rest => s ++ sep ++ joinText sep (t :: rest)

section Text

variable (ses : SqlSession)

def quoted (s : Str) : Str := '\'' :: (ses.escape s ++ ['\''])

def Lit.sql : Lit → Str
  | .num n => n.numeral.text
  | .numText s => s
  | .text s => quoted ses s
  | .quotedNum n => quoted ses n.fixed.text

/-- A designation matched against `object_canonical`. -/
def designationSql (sqlLike : Bool) (d : Str) : Str :=
  if sqlLike then "object_canonical LIKE '%".toList ++ ses.escape d ++ "%'".toList
  else "object_canonical = ".toList ++ quoted ses d

def keywordSql (kw cond : Str) : Str :=
  "EXISTS (SELECT 1 FROM frame_keywords k WHERE k.frame_id = v_frames.frame_id AND k.keyword = ".toList
    ++ quoted ses kw ++ cond ++ ")".toList

/-- The comparison of a card's value; a number is compared as one. -/
def keywordCond (sqlOp : Str) : Lit → Str
  | .num n => "CAST(k.value AS DECIMAL(20,6)) ".toList ++ sqlOp ++ ' ' :: n.numeral.text
  | v => "k.value ".toList ++ sqlOp ++ ' ' :: v.sql ses

/-- Half the width of the box in right ascension: everything near the poles. -/
def raHalf (dec r : ℚ) : ℚ :=
  if |ses.cosDeg dec| < Rounding.binary64 (1 / 10 ^ 6) ∨ 90 ≤ Rounding.binary64 (|dec| + r) then 180
  else Rounding.binary64 (r / |ses.cosDeg dec|)

def betweenSql (column : Str) (lo hi : ℚ) : Str :=
  column ++ " BETWEEN ".toList ++ (fixedNumeral lo).text ++ " AND ".toList ++ (fixedNumeral hi).text

/-- The box before the exact test. -/
def boxSql (ra dec r : ℚ) : Str :=
  betweenSql "dec_deg".toList (Rounding.binary64 (dec - r)) (Rounding.binary64 (dec + r)) ++
    if raHalf ses dec r < 180 then
      " AND ".toList ++ betweenSql "ra_deg".toList (Rounding.binary64 (ra - raHalf ses dec r))
        (Rounding.binary64 (ra + raHalf ses dec r))
    else []

/-- The haversine of the distance. -/
def haversineSql (ra dec r : Numeral) : Str :=
  "DEGREES(2*ASIN(SQRT(POWER(SIN(RADIANS(dec_deg-".toList ++ dec.text ++
    ")/2),2) + COS(RADIANS(".toList ++ dec.text ++
    "))*COS(RADIANS(dec_deg))*POWER(SIN(RADIANS(ra_deg-".toList ++ ra.text ++
    ")/2),2)))) <= ".toList ++ r.text

def coneSql (ra dec r : JsonNum) : Str :=
  "(ra_deg IS NOT NULL AND dec_deg IS NOT NULL AND (".toList ++
    boxSql ses ra.double dec.double r.double ++ ") AND ".toList ++
    haversineSql ra.fixed dec.fixed r.fixed ++ ")".toList

/-- A set by id or by name, with the columns that hold them. -/
def SetRef.sql (idColumn nameColumn : Str) : SetRef → Str
  | .id n => idColumn ++ " = ".toList ++ (intNumeral n.long).text
  | .name s => nameColumn ++ " = ".toList ++ quoted ses s

def taggedSql (tag : SetRef) : Str :=
  "EXISTS (SELECT 1 FROM frame_tags ft JOIN tags t ON t.id = ft.tag_id WHERE ft.frame_id = v_frames.frame_id AND ".toList
    ++ tag.sql ses "ft.tag_id".toList "t.name".toList ++ ")".toList

def inCollectionSql (collection : SetRef) : Str :=
  "EXISTS (SELECT 1 FROM collection_frames cf JOIN collections c ON c.id = cf.collection_id WHERE cf.frame_id = v_frames.frame_id AND ".toList
    ++ collection.sql ses "cf.collection_id".toList "c.name".toList ++ ")".toList

def negatedSql (negated : Bool) (s : Str) : Str := if negated then "NOT ".toList ++ s else s

def Leaf.sql : Leaf → Str
  | .isNull field negated => field ++ (if negated then " IS NOT NULL" else " IS NULL").toList
  | .compare field sqlOp v => field ++ ' ' :: (sqlOp ++ ' ' :: v.sql ses)
  | .isIn field vs =>
    field ++ " IN (".toList ++ joinText ", ".toList (vs.map (Lit.sql ses)) ++ ")".toList
  | .between field lo hi =>
    field ++ " BETWEEN ".toList ++ lo.sql ses ++ " AND ".toList ++ hi.sql ses
  | .object sqlLike names =>
    '(' :: (joinText " OR ".toList (names.map (designationSql ses sqlLike)) ++ [')'])
  | .keywordPresent kw negated => negatedSql negated (keywordSql ses kw [])
  | .keyword kw sqlOp v => keywordSql ses kw (" AND ".toList ++ keywordCond ses sqlOp v)
  | .cone ra dec radius => coneSql ses ra dec radius
  | .tagged tag negated => negatedSql negated (taggedSql ses tag)
  | .inCollection collection => inCollectionSql ses collection

mutual

/-- The text of a node. -/
def Cond.sql : Cond → Str
  | .always => "1=1".toList
  | .leaf l => l.sql ses
  | .all cs => '(' :: (joinText " AND ".toList (sqlAll cs) ++ [')'])
  | .any cs => '(' :: (joinText " OR ".toList (sqlAll cs) ++ [')'])
  | .neg c => "NOT (".toList ++ c.sql ++ ")".toList

def sqlAll : List Cond → List Str
  | [] => []
  | c :: cs => c.sql :: sqlAll cs

end

end Text

/-- The text of a sort specification. -/
def SortKey.sql (k : SortKey) : Str := k.field ++ ' ' :: (if k.desc then "DESC" else "ASC").toList

def sortSql (keys : List SortKey) : Str := joinText ", ".toList (keys.map SortKey.sql)

/-! ### The tree -/

def Numeral.items (x : Numeral) : List Item :=
  (if x.neg then [.atom (.sym ['-'])] else []) ++ [.atom (.number x.digits)]

def wordItem (s : Str) : Item := .atom (.word s)

def textItem (s : Str) : Item := .atom (.quoted '\'' s)

/-- The items of a fixed piece of text. -/
def phrase (s : String) : List Item := ((lex s.toList).bind group).getD []

/-- The form that computes: the characters are listed. -/
theorem phrase_ofList (cs : List Char) : phrase (String.ofList cs) = ((lex cs).bind group).getD [] := by
  unfold phrase
  rw [String.toList_ofList]

section Tree

variable (ses : SqlSession)

def Lit.items : Lit → List Item
  | .num n => n.numeral.items
  | .numText s => [.atom (.number s)]
  | .text s => [textItem (ses.escape s)]
  | .quotedNum n => [textItem (ses.escape n.fixed.text)]

def designationItems (sqlLike : Bool) (d : Str) : List Item :=
  if sqlLike then phrase "object_canonical LIKE" ++ [textItem ('%' :: (ses.escape d ++ ['%']))]
  else phrase "object_canonical =" ++ [textItem (ses.escape d)]

/-- The items of a comparison operator. -/
def opItem (sqlOp : Str) : Item :=
  if sqlOp = "LIKE".toList then wordItem sqlOp else .atom (.sym sqlOp)

def keywordItems (kw : Str) (cond : List Item) : List Item :=
  [kwItem "EXISTS", .group (phrase
    "SELECT 1 FROM frame_keywords k WHERE k.frame_id = v_frames.frame_id AND k.keyword ="
      ++ textItem (ses.escape kw) :: cond)]

def keywordCondItems (sqlOp : Str) : Lit → List Item
  | .num n => phrase "CAST(k.value AS DECIMAL(20,6))" ++ opItem sqlOp :: n.numeral.items
  | v => phrase "k.value" ++ opItem sqlOp :: v.items ses

def betweenItems (column : Str) (lo hi : List Item) : List Item :=
  wordItem column :: kwItem "BETWEEN" :: (lo ++ kwItem "AND" :: hi)

/-- The parts of the box. -/
def boxItems (ra dec r : ℚ) : List (List Item) :=
  betweenItems "dec_deg".toList (fixedNumeral (Rounding.binary64 (dec - r))).items
    (fixedNumeral (Rounding.binary64 (dec + r))).items ::
    if raHalf ses dec r < 180 then
      [betweenItems "ra_deg".toList (fixedNumeral (Rounding.binary64 (ra - raHalf ses dec r))).items
        (fixedNumeral (Rounding.binary64 (ra + raHalf ses dec r))).items]
    else []

def haversineItems (ra dec r : Numeral) : List Item :=
  let sine (column : Str) (x : Numeral) : Item :=
    .group (kwItem "SIN" ::
      .group (kwItem "RADIANS" ::
        .group (wordItem column :: .atom (.sym ['-']) :: x.items) :: phrase "/2") ::
      phrase ",2")
  kwItem "DEGREES" ::
    .group (phrase "2*ASIN" ++
      [.group (kwItem "SQRT" ::
        [.group (kwItem "POWER" :: sine "dec_deg".toList dec :: .atom (.sym ['+']) :: kwItem "COS" ::
          .group (kwItem "RADIANS" :: [.group dec.items]) ::
          (phrase "*COS(RADIANS(dec_deg))*POWER" ++ [sine "ra_deg".toList ra]))])]) ::
    (phrase "<=" ++ r.items)

/-- The conjuncts of a cone. -/
def coneItems (ra dec r : JsonNum) : List (List Item) :=
  [phrase "ra_deg IS NOT NULL", phrase "dec_deg IS NOT NULL",
    [.group (joinItems (kwItem "AND") (boxItems ses ra.double dec.double r.double))],
    haversineItems ra.fixed dec.fixed r.fixed]

/-- A cone as a tree: both coordinates are there, the box, and the distance. -/
def coneTree (ra dec r : JsonNum) : Tree :=
  .and [.pred (phrase "ra_deg IS NOT NULL"), .pred (phrase "dec_deg IS NOT NULL"),
    joined .and ((boxItems ses ra.double dec.double r.double).map Tree.pred),
    .pred (haversineItems ra.fixed dec.fixed r.fixed)]

def SetRef.items (idColumn nameColumn : String) : SetRef → List Item
  | .id n => phrase idColumn ++ .atom (.sym ['=']) :: (intNumeral n.long).items
  | .name s => phrase nameColumn ++ .atom (.sym ['=']) :: [textItem (ses.escape s)]

def taggedItems (tag : SetRef) : List Item :=
  [kwItem "EXISTS", .group (phrase
    "SELECT 1 FROM frame_tags ft JOIN tags t ON t.id = ft.tag_id WHERE ft.frame_id = v_frames.frame_id AND"
      ++ tag.items ses "ft.tag_id" "t.name")]

def inCollectionItems (collection : SetRef) : List Item :=
  [kwItem "EXISTS", .group (phrase
    "SELECT 1 FROM collection_frames cf JOIN collections c ON c.id = cf.collection_id WHERE cf.frame_id = v_frames.frame_id AND"
      ++ collection.items ses "cf.collection_id" "c.name")]

def negatedTree (negated : Bool) (is : List Item) : Tree :=
  if negated then .not (.pred is) else .pred is

def negatedItems (negated : Bool) (is : List Item) : List Item :=
  if negated then kwItem "NOT" :: is else is

/-- The items of a leaf. -/
def Leaf.items : Leaf → List Item
  | .isNull field negated => wordItem field :: phrase (if negated then "IS NOT NULL" else "IS NULL")
  | .compare field sqlOp v => wordItem field :: opItem sqlOp :: v.items ses
  | .isIn field vs =>
    [wordItem field, kwItem "IN", .group (joinItems (.atom (.sym [','])) (vs.map (Lit.items ses)))]
  | .between field lo hi => betweenItems field (lo.items ses) (hi.items ses)
  | .object sqlLike names =>
    [.group (joinItems (kwItem "OR") (names.map (designationItems ses sqlLike)))]
  | .keywordPresent kw negated => negatedItems negated (keywordItems ses kw [])
  | .keyword kw sqlOp v => keywordItems ses kw (kwItem "AND" :: keywordCondItems ses sqlOp v)
  | .cone ra dec radius =>
    [.group (joinItems (kwItem "AND") (coneItems ses ra dec radius))]
  | .tagged tag negated => negatedItems negated (taggedItems ses tag)
  | .inCollection collection => inCollectionItems ses collection

/-- A leaf as a tree: one predicate; the alternatives of an object search and the conjuncts of a
cone are below one node. -/
def Leaf.tree : Leaf → Tree
  | .object sqlLike names => joined .or (names.map fun d => .pred (designationItems ses sqlLike d))
  | .cone ra dec radius => coneTree ses ra dec radius
  | .keywordPresent kw negated => negatedTree negated (keywordItems ses kw [])
  | .tagged tag negated => negatedTree negated (taggedItems ses tag)
  | l => .pred (l.items ses)

mutual

def Cond.items : Cond → List Item
  | .always => phrase "1=1"
  | .leaf l => l.items ses
  | .all cs => [.group (joinItems (kwItem "AND") (itemsAll cs))]
  | .any cs => [.group (joinItems (kwItem "OR") (itemsAll cs))]
  | .neg c => [kwItem "NOT", .group c.items]

def itemsAll : List Cond → List (List Item)
  | [] => []
  | c :: cs => c.items :: itemsAll cs

end

mutual

/-- The boolean tree of a filter. -/
def Cond.tree : Cond → Tree
  | .always => .pred (phrase "1=1")
  | .leaf l => l.tree ses
  | .all cs => joined .and (treeAll cs)
  | .any cs => joined .or (treeAll cs)
  | .neg c => .not c.tree

def treeAll : List Cond → List Tree
  | [] => []
  | c :: cs => c.tree :: treeAll cs

end

end Tree

/-! ### What the compiler lets through -/

/-- The literal is not a string given for a number. -/
def Lit.Given : Lit → Prop
  | .numText _ => False
  | _ => True

def columns : List Str := fields.map Prod.fst

def operators : List Str := binops.map Prod.snd

/-- The columns and operators of a leaf are those of the tables, and it has something to compare. -/
def Leaf.Allowed : Leaf → Prop
  | .isNull field _ => field ∈ columns
  | .compare field sqlOp v => field ∈ columns ∧ sqlOp ∈ operators ∧ v.Given
  | .isIn field vs => field ∈ columns ∧ vs ≠ [] ∧ ∀ v ∈ vs, v.Given
  | .between field lo hi => field ∈ columns ∧ lo.Given ∧ hi.Given
  | .object _ names => names ≠ []
  | .keyword _ sqlOp v => sqlOp ∈ operators ∧ v.Given
  | _ => True

mutual

/-- Every leaf has `P`, and no conjunction or disjunction is empty. -/
def Cond.Holds (P : Leaf → Prop) : Cond → Prop
  | .always => True
  | .leaf l => P l
  | .all cs => cs ≠ [] ∧ AllHold P cs
  | .any cs => cs ≠ [] ∧ AllHold P cs
  | .neg c => c.Holds P

def AllHold (P : Leaf → Prop) : List Cond → Prop
  | [] => True
  | c :: cs => c.Holds P ∧ AllHold P cs

end

/-! ### Reading the items -/

/-- No item is a word that joins terms. -/
def Plain (is : List Item) : Prop :=
  ∀ i ∈ is, isKw "OR" i = false ∧ isKw "AND" i = false ∧ isKw "BETWEEN" i = false

theorem Plain.orFree {is : List Item} (h : Plain is) : OrFree is := fun i hi => (h i hi).1

theorem Plain.cons {i : Item} {is : List Item}
    (hi : isKw "OR" i = false ∧ isKw "AND" i = false ∧ isKw "BETWEEN" i = false) (h : Plain is) :
    Plain (i :: is) := by
  intro j hj
  rcases List.mem_cons.mp hj with rfl | hj
  · exact hi
  · exact h j hj

theorem plain_nil : Plain [] := fun _ hi => by cases hi

/-- A plain piece does not change what waits for an `AND`. -/
theorem andFree_append {is : List Item} (h : Plain is) (b : Bool) (js : List Item) :
    AndFree b (is ++ js) ↔ AndFree b js := by
  induction is generalizing b with
  | nil => exact Iff.rfl
  | cons i is ih =>
    obtain ⟨-, hand, hbetween⟩ := h i (by simp)
    show AndFree b (i :: (is ++ js)) ↔ _
    rw [AndFree, hand, hbetween, Bool.or_false]
    exact ih (fun j hj => h j (List.mem_cons_of_mem _ hj)) b

theorem Plain.andFree {is : List Item} (h : Plain is) : AndFree false is := by
  have hnil := (andFree_append h false []).mpr rfl
  rwa [List.append_nil] at hnil

/-- A plain predicate. -/
theorem reads_plain {a : Atom} {is : List Item} (hnot : isKw "NOT" (.atom a) = false)
    (h : Plain (.atom a :: is)) : ParsesTo (.atom a :: is) (.pred (.atom a :: is)) :=
  reads_pred hnot h.orFree h.andFree

theorem plain_numeral (x : Numeral) : Plain x.items := by
  intro i hi
  rcases List.mem_append.mp hi with hi | hi
  · split at hi
    · rw [List.mem_singleton.mp hi]
      exact ⟨rfl, rfl, rfl⟩
    · cases hi
  · rw [List.mem_singleton.mp hi]
    exact ⟨rfl, rfl, rfl⟩

theorem plain_group (is : List Item) : Plain [.group is] := by
  intro i hi
  rw [List.mem_singleton.mp hi]
  exact ⟨rfl, rfl, rfl⟩

theorem plain_text (s : Str) : Plain [textItem s] := by
  intro i hi
  rw [List.mem_singleton.mp hi]
  exact ⟨rfl, rfl, rfl⟩

section Reading

variable {ses : SqlSession}

theorem plain_lit (v : Lit) : Plain (v.items ses) := by
  cases v with
  | num n => exact plain_numeral _
  | numText s =>
    intro i hi
    rw [List.mem_singleton.mp hi]
    exact ⟨rfl, rfl, rfl⟩
  | text s => exact plain_text _
  | quotedNum n => exact plain_text _

theorem column_plain : ∀ f ∈ columns, isKw "NOT" (wordItem f) = false ∧ isKw "OR" (wordItem f) = false ∧
    isKw "AND" (wordItem f) = false ∧ isKw "BETWEEN" (wordItem f) = false := by
  decide

theorem operator_plain : ∀ o ∈ operators, isKw "OR" (opItem o) = false ∧
    isKw "AND" (opItem o) = false ∧ isKw "BETWEEN" (opItem o) = false := by
  decide

theorem reads_between {column : Str} (hc : column ∈ columns) {lo hi : List Item} (hlo : Plain lo)
    (hhi : Plain hi) : ParsesTo (betweenItems column lo hi) (.pred (betweenItems column lo hi)) := by
  obtain ⟨hnot, hor, hand, hbetween⟩ := column_plain column hc
  refine reads_pred hnot ?_ ?_
  · intro i hi'
    rcases List.mem_cons.mp hi' with rfl | hi'
    · exact hor
    · rcases List.mem_cons.mp hi' with rfl | hi'
      · decide
      · rcases List.mem_append.mp hi' with hi' | hi'
        · exact hlo.orFree i hi'
        · rcases List.mem_cons.mp hi' with rfl | hi'
          · decide
          · exact hhi.orFree i hi'
  · show AndFree false (wordItem column :: kwItem "BETWEEN" :: (lo ++ kwItem "AND" :: hi))
    rw [AndFree, hand, hbetween, AndFree]
    show AndFree true (lo ++ kwItem "AND" :: hi)
    rw [andFree_append hlo, AndFree]
    exact ⟨rfl, hhi.andFree⟩

theorem reads_negated {negated : Bool} {a : Atom} {is : List Item}
    (hnot : isKw "NOT" (.atom a) = false) (h : Plain (.atom a :: is)) :
    ParsesTo (negatedItems negated (.atom a :: is)) (negatedTree negated (.atom a :: is)) := by
  cases negated with
  | false => exact reads_plain hnot h
  | true => exact (reads_plain hnot h).negated

theorem plain_exists (is : List Item) : Plain [kwItem "EXISTS", .group is] :=
  Plain.cons ⟨by decide, by decide, by decide⟩ (plain_group is)

theorem reads_designation (sqlLike : Bool) (d : Str) :
    ParsesTo (designationItems ses sqlLike d) (.pred (designationItems ses sqlLike d)) := by
  cases sqlLike with
  | false =>
    refine reads_plain (a := .word "object_canonical".toList) (by decide) ?_
    refine Plain.cons ⟨by decide, by decide, by decide⟩ (Plain.cons ⟨rfl, rfl, rfl⟩ (plain_text _))
  | true =>
    refine reads_plain (a := .word "object_canonical".toList) (by decide) ?_
    refine Plain.cons ⟨by decide, by decide, by decide⟩
      (Plain.cons ⟨by decide, by decide, by decide⟩ (plain_text _))

theorem reads_box (ra dec r : ℚ) :
    List.Forall₂ ParsesTo (boxItems ses ra dec r) ((boxItems ses ra dec r).map Tree.pred) := by
  unfold boxItems
  refine .cons (reads_between (by decide) (plain_numeral _) (plain_numeral _)) ?_
  split
  · exact .cons (reads_between (by decide) (plain_numeral _) (plain_numeral _)) .nil
  · exact .nil

/-- A predicate that is one function of its arguments, compared. -/
theorem reads_haversine (ra dec r : Numeral) :
    ParsesTo (haversineItems ra dec r) (.pred (haversineItems ra dec r)) := by
  refine reads_plain (a := .word "DEGREES".toList) (by decide) ?_
  refine Plain.cons ⟨by decide, by decide, by decide⟩ (Plain.cons ⟨rfl, rfl, rfl⟩ ?_)
  exact Plain.cons ⟨rfl, rfl, rfl⟩ (plain_numeral _)

theorem reads_cone (ra dec r : JsonNum) :
    ParsesTo [.group (joinItems (kwItem "AND") (coneItems ses ra dec r))] (coneTree ses ra dec r) := by
  have hnull : ∀ f ∈ ["ra_deg", "dec_deg"], ParsesTo (phrase (f ++ " IS NOT NULL"))
      (.pred (phrase (f ++ " IS NOT NULL"))) := by
    intro f hf
    rcases List.mem_cons.mp hf with rfl | hf
    · refine reads_plain (a := .word "ra_deg".toList) (by decide) ?_
      refine Plain.cons ⟨by decide, by decide, by decide⟩ ?_
      refine Plain.cons ⟨by decide, by decide, by decide⟩ (Plain.cons ⟨by decide, by decide, by decide⟩ ?_)
      exact Plain.cons ⟨by decide, by decide, by decide⟩ plain_nil
    · rw [List.mem_singleton.mp hf]
      refine reads_plain (a := .word "dec_deg".toList) (by decide) ?_
      refine Plain.cons ⟨by decide, by decide, by decide⟩ ?_
      refine Plain.cons ⟨by decide, by decide, by decide⟩ (Plain.cons ⟨by decide, by decide, by decide⟩ ?_)
      exact Plain.cons ⟨by decide, by decide, by decide⟩ plain_nil
  have hbox : ParsesTo [.group (joinItems (kwItem "AND") (boxItems ses ra.double dec.double r.double))]
      (joined .and ((boxItems ses ra.double dec.double r.double).map Tree.pred)) :=
    ParsesTo.conjunction (reads_box _ _ _) (List.cons_ne_nil _ _)
  exact ParsesTo.conjunction (.cons (hnull "ra_deg" (by simp)) (.cons (hnull "dec_deg" (by simp))
    (.cons hbox (.cons (reads_haversine _ _ _) .nil)))) (List.cons_ne_nil _ _)

/-- **A leaf that is let through reads as its tree.** -/
theorem Leaf.reads {l : Leaf} (h : l.Allowed) : ParsesTo (l.items ses) (l.tree ses) := by
  cases l with
  | isNull field negated =>
    obtain ⟨hnot, hword⟩ := column_plain field h
    refine reads_plain (a := .word field) hnot (Plain.cons hword ?_)
    cases negated with
    | false =>
      exact Plain.cons ⟨by decide, by decide, by decide⟩
        (Plain.cons ⟨by decide, by decide, by decide⟩ plain_nil)
    | true =>
      exact Plain.cons ⟨by decide, by decide, by decide⟩
        (Plain.cons ⟨by decide, by decide, by decide⟩
          (Plain.cons ⟨by decide, by decide, by decide⟩ plain_nil))
  | compare field sqlOp v =>
    obtain ⟨hf, hop, -⟩ := h
    obtain ⟨hnot, hword⟩ := column_plain field hf
    exact reads_plain (a := .word field) hnot
      (Plain.cons hword (Plain.cons (operator_plain sqlOp hop) (plain_lit v)))
  | isIn field vs =>
    obtain ⟨hnot, hword⟩ := column_plain field h.1
    exact reads_plain (a := .word field) hnot
      (Plain.cons hword (Plain.cons ⟨by decide, by decide, by decide⟩ (plain_group _)))
  | between field lo hi => exact reads_between h.1 (plain_lit lo) (plain_lit hi)
  | object sqlLike names =>
    have hall : List.Forall₂ ParsesTo (names.map (designationItems ses sqlLike))
        (names.map fun d => .pred (designationItems ses sqlLike d)) := by
      clear h
      induction names with
      | nil => exact .nil
      | cons d ds ih => exact .cons (reads_designation sqlLike d) ih
    exact ParsesTo.disjunction hall fun hnil => h (List.map_eq_nil_iff.mp hnil)
  | keywordPresent kw negated => exact reads_negated (by decide) (plain_exists _)
  | keyword kw sqlOp v => exact reads_plain (a := .word "EXISTS".toList) (by decide) (plain_exists _)
  | cone ra dec radius => exact reads_cone _ _ _
  | tagged tag negated => exact reads_negated (by decide) (plain_exists _)
  | inCollection collection =>
    exact reads_plain (a := .word "EXISTS".toList) (by decide) (plain_exists _)

mutual

/-- **A filter reads as its tree.** -/
theorem Cond.reads : ∀ c : Cond, c.Holds Leaf.Allowed → ParsesTo (c.items ses) (c.tree ses)
  | .always, _ =>
    reads_plain (a := .number "1".toList) rfl
      (Plain.cons ⟨rfl, rfl, rfl⟩ (Plain.cons ⟨rfl, rfl, rfl⟩ (Plain.cons ⟨rfl, rfl, rfl⟩ plain_nil)))
  | .leaf _, h => Leaf.reads h
  | .all cs, h =>
    ParsesTo.conjunction (readsAll cs h.2) (by cases cs; exact absurd rfl h.1; exact List.cons_ne_nil _ _)
  | .any cs, h =>
    ParsesTo.disjunction (readsAll cs h.2) (by cases cs; exact absurd rfl h.1; exact List.cons_ne_nil _ _)
  | .neg c, h => (Cond.reads c h).parens.negated

theorem readsAll : ∀ cs : List Cond, AllHold Leaf.Allowed cs →
    List.Forall₂ ParsesTo (itemsAll ses cs) (treeAll ses cs)
  | [], _ => .nil
  | c :: cs, h => .cons (Cond.reads c h.1) (readsAll cs h.2)

end

end Reading

/-! ### Scanning the text -/

/-- What comes of the sign of a numeral. -/
def Numeral.sign (x : Numeral) : List Token := if x.neg then [minus] else []

theorem flattenAll_numeral (x : Numeral) :
    flattenAll x.items = x.sign ++ [.atom (.number x.digits)] := by
  unfold Numeral.items Numeral.sign
  rw [flattenAll_append]
  cases x.neg <;> rfl

theorem Numeral.runs_digits (x : Numeral) : Runs .start x.digits [] (.number x.digits) := by
  obtain ⟨c, cs, hx, hc, hcs⟩ := x.head_digit
  refine ⟨?_⟩
  rw [hx]
  show ((begin c).1 ++ (run (begin c).2 cs).1, (run (begin c).2 cs).2) = _
  rw [begin_digit hc, run_number hcs]
  rfl

theorem Numeral.runs_start (x : Numeral) : Runs .start x.text x.sign (.number x.digits) := by
  unfold Numeral.text Numeral.sign
  cases x.neg with
  | false => exact x.runs_digits
  | true =>
    obtain ⟨c, cs, hx, hc, hcs⟩ := x.head_digit
    refine ⟨?_⟩
    -- the dash ends at the first digit
    have hdash : c ≠ '-' := by
      intro he
      rw [he] at hc
      cases hc
    have hstep : step .dash c = endThen [minus] c := if_neg hdash
    rw [hx]
    show ([] ++ ((step .dash c).1 ++ (run (step .dash c).2 cs).1), (run (step .dash c).2 cs).2) = _
    rw [hstep, endThen, begin_digit hc, run_number hcs]
    rfl

/-- A numeral right after a dash: two dashes are a comment only before a blank. -/
theorem Numeral.runs_dash (x : Numeral) :
    Runs .dash x.text (minus :: x.sign) (.number x.digits) := by
  obtain ⟨c, cs, hx, hc, hcs⟩ := x.head_digit
  have hdash : c ≠ '-' := by
    intro he
    rw [he] at hc
    cases hc
  have hcontrol : (isBlank c || isControl c) = false := by
    have hne : ∀ d : Char, d.isDigit = false → c ≠ d := by
      rintro d hd rfl
      rw [hc] at hd
      cases hd
    have hspace := hne ' ' rfl
    have htab := hne '\t' rfl
    have hline := hne '\n' rfl
    have hvt := hne '\x0b' rfl
    have hff := hne '\x0c' rfl
    have hcr := hne '\r' rfl
    simp only [Char.isDigit] at hc
    simp only [isBlank, isControl]
    grind [Char.toNat, UInt32.le_iff_toNat_le]
  unfold Numeral.text Numeral.sign
  refine ⟨?_⟩
  cases x.neg with
  | false =>
    have hstep : step .dash c = endThen [minus] c := if_neg hdash
    show run .dash x.digits = _
    rw [hx]
    show ((step .dash c).1 ++ (run (step .dash c).2 cs).1, (run (step .dash c).2 cs).2) = _
    rw [hstep, endThen, begin_digit hc, run_number hcs]
    rfl
  | true =>
    have hstep : step .dashDash c = endThen [minus, minus] c := by
      show (if _ then _ else if _ then _ else _) = _
      rw [hcontrol, if_neg Bool.false_ne_true, if_neg hdash]
    show run .dash ('-' :: x.digits) = _
    rw [hx]
    show ([] ++ ((step .dashDash c).1 ++ (run (step .dashDash c).2 cs).1),
      (run (step .dashDash c).2 cs).2) = _
    rw [hstep, endThen, begin_digit hc, run_number hcs]
    rfl

theorem Numeral.scans (x : Numeral) : Scans x.text (flattenAll x.items) := by
  rw [flattenAll_numeral]
  exact x.runs_start.scans (closed_number _)

/-- Pieces with a separator between. -/
theorem scans_joinText {c : Char} {sep : Str} {i : Item} (hc : c = ' ' ∨ c = ',' ∨ c = ')')
    (hsep : Runs .start (c :: sep) i.flatten .start) {texts : List Str} {iss : List (List Item)}
    (h : List.Forall₂ (fun s is => Scans s (flattenAll is)) texts iss) (hne : iss ≠ []) :
    Scans (joinText (c :: sep) texts) (flattenAll (joinItems i iss)) := by
  induction h with
  | nil => exact absurd rfl hne
  | cons hit hrest ih =>
    cases hrest with
    | nil => exact hit
    | cons hit' hrest' =>
      obtain ⟨done, m, rest, hrun, hclosed, hrest⟩ := ih (List.cons_ne_nil _ _)
      show Scans (_ ++ (c :: sep) ++ _) (flattenAll (_ ++ i :: _))
      rw [flattenAll_append, flattenAll_cons, hrest, List.append_assoc]
      have hall := (hit.ended hc (hsep.append hrun)).scans hclosed
      rwa [List.append_assoc, List.append_assoc] at hall

/-- The columns are scanned as words. -/
theorem column_scans : ∀ f ∈ columns, Runs .start f [] (.word f) := by
  have h : ∀ f ∈ columns, run .start f = ([], .word f) := by decide
  exact fun f hf => ⟨h f hf⟩

theorem scans_column {f : Str} (hf : f ∈ columns) : Scans f (wordItem f).flatten :=
  (column_scans f hf).scans (closed_word f)

theorem scans_operator : ∀ o ∈ operators, Scans o (opItem o).flatten := by
  intro o ho
  have ho' : o ∈ ["=".toList, "<>".toList, "<".toList, "<=".toList, ">".toList, ">=".toList,
    "LIKE".toList] := ho
  simp only [List.mem_cons, List.not_mem_nil, or_false] at ho'
  rcases ho' with rfl | rfl | rfl | rfl | rfl | rfl | rfl
  · exact Runs.scans ⟨rfl⟩ closed_start
  · exact Runs.scans ⟨rfl⟩ closed_start
  · exact Runs.scans ⟨rfl⟩ closed_less
  · exact Runs.scans ⟨rfl⟩ closed_start
  · exact Runs.scans ⟨rfl⟩ closed_greater
  · exact Runs.scans ⟨rfl⟩ closed_start
  · exact Runs.scans ⟨rfl⟩ (closed_word _)

section Scanning

variable {ses : SqlSession} (hescape : ∀ s, Escaped (ses.escape s) = true)

include hescape

theorem scans_quoted (s : Str) : Scans (quoted ses s) [.atom (.quoted '\'' (ses.escape s))] := by
  have hopen : Runs .start ['\''] [] (.quote '\'' []) := ⟨rfl⟩
  have hclose : Runs (.quote '\'' (ses.escape s)) ['\''] [] (.quoteEnd '\'' (ses.escape s)) := ⟨rfl⟩
  exact (hopen.append ((runs_quote (hescape s) []).append hclose)).scans (closed_quoteEnd _)

theorem scans_lit {v : Lit} (h : v.Given) : Scans (v.sql ses) (flattenAll (v.items ses)) := by
  cases v with
  | num n => exact n.numeral.scans
  | numText s => exact h.elim
  | text s => exact scans_quoted hescape s
  | quotedNum n => exact scans_quoted hescape _

theorem scans_designation (sqlLike : Bool) (d : Str) :
    Scans (designationSql ses sqlLike d) (flattenAll (designationItems ses sqlLike d)) := by
  cases sqlLike with
  | false =>
    have hname : Runs .start "object_canonical = ".toList (flattenAll (phrase "object_canonical ="))
        .start := ⟨by rw [phrase_ofList, String.toList_ofList]; decide⟩
    show Scans ("object_canonical = ".toList ++ quoted ses d)
      (flattenAll (phrase "object_canonical =" ++ [textItem (ses.escape d)]))
    rw [flattenAll_append]
    exact hname.scans_append (scans_quoted hescape d)
  | true =>
    have hname : Runs .start "object_canonical LIKE '%".toList
        (flattenAll (phrase "object_canonical LIKE")) (.quote '\'' ['%']) :=
      ⟨by rw [phrase_ofList, String.toList_ofList]; decide⟩
    have hclose : Runs (.quote '\'' (['%'] ++ ses.escape d)) "%'".toList []
        (.quoteEnd '\'' (['%'] ++ ses.escape d ++ ['%'])) := ⟨rfl⟩
    have hall := ((hname.append (runs_quote (hescape d) ['%'])).append hclose).scans
      (closed_quoteEnd _)
    rw [List.append_nil, List.append_nil] at hall
    show Scans ("object_canonical LIKE '%".toList ++ ses.escape d ++ "%'".toList)
      (flattenAll (phrase "object_canonical LIKE" ++ [textItem ('%' :: (ses.escape d ++ ['%']))]))
    rw [flattenAll_append]
    exact hall

omit hescape in
/-- `EXISTS` and a subquery whose last condition is `body`. -/
theorem scans_exists {front body : Str} {is js : List Item}
    (hopen : Runs .start front ((kwItem "EXISTS").flatten ++ .lparen :: flattenAll is) .start)
    (hbody : Scans body (flattenAll js)) :
    Scans (front ++ body ++ [')']) (flattenAll [kwItem "EXISTS", .group (is ++ js)]) := by
  have hclose : Runs .start (body ++ [')']) (flattenAll js ++ [.rparen]) .start :=
    hbody.ended (Or.inr (Or.inr rfl)) ⟨rfl⟩
  have hall := (hopen.append hclose).scans closed_start
  have htokens : (kwItem "EXISTS").flatten ++ .lparen :: flattenAll is ++
      (flattenAll js ++ [.rparen]) ++ [] = flattenAll [kwItem "EXISTS", .group (is ++ js)] := by
    show _ = (kwItem "EXISTS").flatten ++ ((.lparen :: (flattenAll (is ++ js) ++ [.rparen])) ++ [])
    rw [flattenAll_append]
    simp only [List.append_assoc, List.cons_append, List.append_nil]
  rw [htokens, ← List.append_assoc] at hall
  exact hall

omit hescape in
theorem scans_keyword (kw : Str) {cond : Str} {is : List Item}
    (hcond : Scans (quoted ses kw ++ cond) (flattenAll (textItem (ses.escape kw) :: is))) :
    Scans (keywordSql ses kw cond) (flattenAll (keywordItems ses kw is)) := by
  have hopen : Runs .start
      "EXISTS (SELECT 1 FROM frame_keywords k WHERE k.frame_id = v_frames.frame_id AND k.keyword = ".toList
      ((kwItem "EXISTS").flatten ++ .lparen :: flattenAll (phrase
        "SELECT 1 FROM frame_keywords k WHERE k.frame_id = v_frames.frame_id AND k.keyword ="))
      .start := ⟨by rw [phrase_ofList, String.toList_ofList]; decide +kernel⟩
  have hall := scans_exists hopen hcond
  rwa [← List.append_assoc] at hall

theorem scans_keywordCond {sqlOp : Str} {v : Lit} (hop : sqlOp ∈ operators) (hv : v.Given) :
    Scans (keywordCond ses sqlOp v) (flattenAll (keywordCondItems ses sqlOp v)) := by
  have hvalue : ∀ v : Lit, v.Given → Scans ("k.value ".toList ++ sqlOp ++ ' ' :: v.sql ses)
      (flattenAll (phrase "k.value" ++ opItem sqlOp :: v.items ses)) := by
    intro v hv
    have hname : Runs .start "k.value ".toList (flattenAll (phrase "k.value")) .start :=
      ⟨by rw [phrase_ofList, String.toList_ofList]; decide⟩
    rw [flattenAll_append, List.append_assoc, flattenAll_cons]
    exact hname.scans_append ((scans_operator sqlOp hop).space (scans_lit hescape hv))
  cases v with
  | num n =>
    have hname : Runs .start "CAST(k.value AS DECIMAL(20,6)) ".toList
        (flattenAll (phrase "CAST(k.value AS DECIMAL(20,6))")) .start :=
      ⟨by rw [phrase_ofList, String.toList_ofList]; decide⟩
    show Scans ("CAST(k.value AS DECIMAL(20,6)) ".toList ++ sqlOp ++ ' ' :: n.numeral.text)
      (flattenAll (phrase "CAST(k.value AS DECIMAL(20,6))" ++ opItem sqlOp :: n.numeral.items))
    rw [flattenAll_append, List.append_assoc, flattenAll_cons]
    exact hname.scans_append ((scans_operator sqlOp hop).space n.numeral.scans)
  | numText s => exact hv.elim
  | text s => exact hvalue (.text s) hv
  | quotedNum n => exact hvalue (.quotedNum n) hv

theorem scans_setRef (ref : SetRef) {idColumn nameColumn : String}
    (hid : Runs .start (idColumn.toList ++ " = ".toList)
      (flattenAll (phrase idColumn) ++ [.atom (.sym ['='])]) .start)
    (hname : Runs .start (nameColumn.toList ++ " = ".toList)
      (flattenAll (phrase nameColumn) ++ [.atom (.sym ['='])]) .start) :
    Scans (ref.sql ses idColumn.toList nameColumn.toList)
      (flattenAll (ref.items ses idColumn nameColumn)) := by
  cases ref with
  | id n =>
    have hall := hid.scans_append (intNumeral n.long).scans
    show Scans _ (flattenAll (phrase idColumn ++ .atom (.sym ['=']) :: (intNumeral n.long).items))
    rw [flattenAll_append, flattenAll_cons]
    rwa [List.append_assoc (flattenAll (phrase idColumn))] at hall
  | name s =>
    have hall := hname.scans_append (scans_quoted hescape s)
    show Scans _ (flattenAll (phrase nameColumn ++ .atom (.sym ['=']) :: [textItem (ses.escape s)]))
    rw [flattenAll_append, flattenAll_cons]
    rwa [List.append_assoc (flattenAll (phrase nameColumn))] at hall

theorem scans_tagged (tag : SetRef) : Scans (taggedSql ses tag) (flattenAll (taggedItems ses tag)) := by
  have hopen : Runs .start
      "EXISTS (SELECT 1 FROM frame_tags ft JOIN tags t ON t.id = ft.tag_id WHERE ft.frame_id = v_frames.frame_id AND ".toList
      ((kwItem "EXISTS").flatten ++ .lparen :: flattenAll (phrase
        "SELECT 1 FROM frame_tags ft JOIN tags t ON t.id = ft.tag_id WHERE ft.frame_id = v_frames.frame_id AND"))
      .start := ⟨by rw [phrase_ofList, String.toList_ofList]; decide +kernel⟩
  exact scans_exists hopen (scans_setRef hescape tag
    ⟨by rw [phrase_ofList, String.toList_ofList]; decide⟩
    ⟨by rw [phrase_ofList, String.toList_ofList]; decide⟩)

theorem scans_inCollection (collection : SetRef) :
    Scans (inCollectionSql ses collection) (flattenAll (inCollectionItems ses collection)) := by
  have hopen : Runs .start
      "EXISTS (SELECT 1 FROM collection_frames cf JOIN collections c ON c.id = cf.collection_id WHERE cf.frame_id = v_frames.frame_id AND ".toList
      ((kwItem "EXISTS").flatten ++ .lparen :: flattenAll (phrase
        "SELECT 1 FROM collection_frames cf JOIN collections c ON c.id = cf.collection_id WHERE cf.frame_id = v_frames.frame_id AND"))
      .start := ⟨by rw [phrase_ofList, String.toList_ofList]; decide +kernel⟩
  exact scans_exists hopen (scans_setRef hescape collection
    ⟨by rw [phrase_ofList, String.toList_ofList]; decide⟩
    ⟨by rw [phrase_ofList, String.toList_ofList]; decide⟩)

omit hescape in
theorem scans_negated {negated : Bool} {s : Str} {is : List Item} (h : Scans s (flattenAll is)) :
    Scans (negatedSql negated s) (flattenAll (negatedItems negated is)) := by
  cases negated with
  | false => exact h
  | true =>
    have hnot : Runs .start "NOT ".toList (kwItem "NOT").flatten .start := ⟨rfl⟩
    exact hnot.scans_append h

omit hescape in
theorem scans_between {column : Str} (hc : column ∈ columns) {lo hi : Str} {ls hs : List Item}
    (hlo : Scans lo (flattenAll ls)) (hhi : Scans hi (flattenAll hs)) :
    Scans (column ++ " BETWEEN ".toList ++ lo ++ " AND ".toList ++ hi)
      (flattenAll (betweenItems column ls hs)) := by
  have hbetween : Runs .start "BETWEEN ".toList (kwItem "BETWEEN").flatten .start := ⟨rfl⟩
  have hand : Runs .start "AND ".toList (kwItem "AND").flatten .start := ⟨rfl⟩
  have hall := (scans_column hc).space
    (hbetween.scans_append (hlo.space (hand.scans_append hhi)))
  have htext : column ++ " BETWEEN ".toList ++ lo ++ " AND ".toList ++ hi =
      column ++ ' ' :: ("BETWEEN ".toList ++ (lo ++ ' ' :: ("AND ".toList ++ hi))) := by
    simp only [List.append_assoc]
    rfl
  rw [htext, betweenItems, flattenAll_cons, flattenAll_cons, flattenAll_append, flattenAll_cons]
  exact hall

omit hescape in
theorem scans_box (ra dec r : ℚ) : Scans ('(' :: (boxSql ses ra dec r ++ [')']))
    (flattenAll [.group (joinItems (kwItem "AND") (boxItems ses ra dec r))]) := by
  have hand : Runs .start (' ' :: "AND ".toList) (kwItem "AND").flatten .start := ⟨rfl⟩
  have hdec := scans_between (show "dec_deg".toList ∈ columns by decide)
    (fixedNumeral (Rounding.binary64 (dec - r))).scans (fixedNumeral (Rounding.binary64 (dec + r))).scans
  have hra := scans_between (show "ra_deg".toList ∈ columns by decide)
    (fixedNumeral (Rounding.binary64 (ra - raHalf ses dec r))).scans
    (fixedNumeral (Rounding.binary64 (ra + raHalf ses dec r))).scans
  have hbox : Scans (boxSql ses ra dec r)
      (flattenAll (joinItems (kwItem "AND") (boxItems ses ra dec r))) := by
    unfold boxSql boxItems
    split
    · have hall := scans_joinText (Or.inl rfl) hand (.cons hdec (.cons hra .nil))
        (List.cons_ne_nil _ _)
      unfold joinText joinText at hall
      rw [List.append_assoc] at hall
      exact hall
    · rw [List.append_nil]
      exact hdec
  have hall := hbox.parens
  rw [flattenAll_cons, flattenAll_nil, List.append_nil]
  exact hall

omit hescape in
/-- A numeral is over where a parenthesis closes. -/
theorem runs_after_numeral {d s : Str} {ts : List Token} {m : Mode} (h : Runs .start s ts m)
    (hs : s.head? = some ')') : Runs (.number d) s (.atom (.number d) :: ts) m := by
  cases s with
  | nil => cases hs
  | cons c t =>
    obtain rfl : c = ')' := Option.some.inj hs
    have hstep : step (.number d) ')' = endThen [.atom (.number d)] ')' :=
      (closed_number d).2 ')' (Or.inr (Or.inr rfl))
    have hstart : ((begin ')').1 ++ (run (begin ')').2 t).1, (run (begin ')').2 t).2) = (ts, m) :=
      h.eq
    obtain ⟨hts, hm⟩ := Prod.mk.inj hstart
    refine ⟨?_⟩
    show ((step (.number d) ')').1 ++ (run (step (.number d) ')').2 t).1,
      (run (step (.number d) ')').2 t).2) = _
    rw [hstep, ← hts, ← hm]
    rfl

omit hescape in
theorem scans_haversine (ra dec r : Numeral) :
    Scans (haversineSql ra dec r) (flattenAll (haversineItems ra dec r)) := by
  have h₁ : Runs .start "DEGREES(2*ASIN(SQRT(POWER(SIN(RADIANS(dec_deg-".toList
      [.atom (.word "DEGREES".toList), .lparen, .atom (.number ['2']), .atom (.sym ['*']),
        .atom (.word "ASIN".toList), .lparen, .atom (.word "SQRT".toList), .lparen,
        .atom (.word "POWER".toList), .lparen, .atom (.word "SIN".toList), .lparen,
        .atom (.word "RADIANS".toList), .lparen, .atom (.word "dec_deg".toList)] .dash :=
    ⟨by rw [String.toList_ofList]; decide⟩
  have h₂ : Runs .start ")/2),2) + COS(RADIANS(".toList
      [.rparen, .atom (.sym ['/']), .atom (.number ['2']), .rparen, .atom (.sym [',']),
        .atom (.number ['2']), .rparen, .atom (.sym ['+']), .atom (.word "COS".toList), .lparen,
        .atom (.word "RADIANS".toList), .lparen] .start := ⟨by rw [String.toList_ofList]; decide⟩
  have h₃ : Runs .start "))*COS(RADIANS(dec_deg))*POWER(SIN(RADIANS(ra_deg-".toList
      [.rparen, .rparen, .atom (.sym ['*']), .atom (.word "COS".toList), .lparen,
        .atom (.word "RADIANS".toList), .lparen, .atom (.word "dec_deg".toList), .rparen, .rparen,
        .atom (.sym ['*']), .atom (.word "POWER".toList), .lparen, .atom (.word "SIN".toList), .lparen,
        .atom (.word "RADIANS".toList), .lparen, .atom (.word "ra_deg".toList)] .dash :=
    ⟨by rw [String.toList_ofList]; decide⟩
  have h₄ : Runs .start ")/2),2)))) <= ".toList
      [.rparen, .atom (.sym ['/']), .atom (.number ['2']), .rparen, .atom (.sym [',']),
        .atom (.number ['2']), .rparen, .rparen, .rparen, .rparen, .atom (.sym "<=".toList)] .start :=
    ⟨by rw [String.toList_ofList]; decide⟩
  have hrun := (((((h₁.append dec.runs_dash).append
    (runs_after_numeral h₂ rfl)).append dec.runs_start).append
    (runs_after_numeral h₃ rfl)).append ra.runs_dash).append
    (runs_after_numeral h₄ rfl)
  have hall := hrun.scans_append r.scans
  have hhalf : flattenAll (phrase "/2") = [.atom (.sym ['/']), .atom (.number ['2'])] := by
    rw [phrase_ofList]
    decide
  have htwo : flattenAll (phrase ",2") = [.atom (.sym [',']), .atom (.number ['2'])] := by
    rw [phrase_ofList]
    decide
  have hasin : flattenAll (phrase "2*ASIN") = [.atom (.number ['2']), .atom (.sym ['*']),
      .atom (.word "ASIN".toList)] := by
    rw [phrase_ofList]
    decide
  have hcos : flattenAll (phrase "*COS(RADIANS(dec_deg))*POWER") = [.atom (.sym ['*']),
      .atom (.word "COS".toList), .lparen, .atom (.word "RADIANS".toList), .lparen,
      .atom (.word "dec_deg".toList), .rparen, .rparen, .atom (.sym ['*']),
      .atom (.word "POWER".toList)] := by
    rw [phrase_ofList]
    decide
  have hle : flattenAll (phrase "<=") = [.atom (.sym "<=".toList)] := by
    rw [phrase_ofList]
    decide
  unfold haversineSql
  simp only [haversineItems, flattenAll_append, flattenAll_cons, flattenAll_nil, Item.flatten,
    flattenAll_numeral, hhalf, htwo, hasin, hcos, hle, kwItem, wordItem, List.append_assoc,
    List.cons_append, List.nil_append, List.append_nil, minus] at hall ⊢
  exact hall

omit hescape in
theorem scans_cone (ra dec r : JsonNum) : Scans (coneSql ses ra dec r)
    (flattenAll [.group (joinItems (kwItem "AND") (coneItems ses ra dec r))]) := by
  have hand : Runs .start (' ' :: "AND ".toList) (kwItem "AND").flatten .start := ⟨rfl⟩
  have hra : Scans "ra_deg IS NOT NULL".toList (flattenAll (phrase "ra_deg IS NOT NULL")) := by
    exact scans_of_word (w := "NULL".toList) (by rw [String.toList_ofList]; decide)
      (by rw [phrase_ofList, String.toList_ofList]; decide)
  have hdec : Scans "dec_deg IS NOT NULL".toList (flattenAll (phrase "dec_deg IS NOT NULL")) := by
    exact scans_of_word (w := "NULL".toList) (by rw [String.toList_ofList]; decide)
      (by rw [phrase_ofList, String.toList_ofList]; decide)
  have hbox : Scans ('(' :: (boxSql ses ra.double dec.double r.double ++ [')'])) _ := scans_box _ _ _
  have hchain := scans_joinText (Or.inl rfl) hand (.cons hra (.cons hdec
    (.cons hbox (.cons (scans_haversine ra.fixed dec.fixed r.fixed) .nil)))) (List.cons_ne_nil _ _)
  have htext : coneSql ses ra dec r = '(' :: (joinText " AND ".toList
      ["ra_deg IS NOT NULL".toList, "dec_deg IS NOT NULL".toList,
        '(' :: (boxSql ses ra.double dec.double r.double ++ [')']),
        haversineSql ra.fixed dec.fixed r.fixed] ++ [')']) := by
    unfold coneSql joinText joinText joinText joinText
    simp only [List.append_assoc, List.cons_append]
    rfl
  rw [htext, flattenAll_cons, flattenAll_nil, List.append_nil]
  exact hchain.parens

/-- **The text of a leaf has its items' tokens.** -/
theorem Leaf.scans {l : Leaf} (h : l.Allowed) : Scans (l.sql ses) (flattenAll (l.items ses)) := by
  cases l with
  | isNull field negated =>
    show Scans _ (flattenAll (wordItem field :: phrase _))
    rw [flattenAll_cons]
    cases negated with
    | false =>
      have hnull : Scans "IS NULL".toList (flattenAll (phrase "IS NULL")) :=
        scans_of_word (w := "NULL".toList) (by rw [String.toList_ofList]; decide)
          (by rw [phrase_ofList, String.toList_ofList]; decide)
      exact (scans_column h).space hnull
    | true =>
      have hnull : Scans "IS NOT NULL".toList (flattenAll (phrase "IS NOT NULL")) :=
        scans_of_word (w := "NULL".toList) (by rw [String.toList_ofList]; decide)
          (by rw [phrase_ofList, String.toList_ofList]; decide)
      exact (scans_column h).space hnull
  | compare field sqlOp v =>
    obtain ⟨hf, hop, hv⟩ := h
    show Scans _ (flattenAll (wordItem field :: opItem sqlOp :: v.items ses))
    rw [flattenAll_cons, flattenAll_cons]
    exact (scans_column hf).space ((scans_operator sqlOp hop).space (scans_lit hescape hv))
  | isIn field vs =>
    obtain ⟨hf, hne, hvs⟩ := h
    have hcomma : Runs .start (',' :: " ".toList) (Item.atom (.sym [','])).flatten .start :=
      ⟨rfl⟩
    have hin : Runs .start "IN ".toList (kwItem "IN").flatten .start := ⟨rfl⟩
    have hall : List.Forall₂ (fun s is => Scans s (flattenAll is)) (vs.map (Lit.sql ses))
        (vs.map (Lit.items ses)) := by
      rw [List.forall₂_map_left_iff, List.forall₂_map_right_iff]
      exact List.forall₂_same.mpr fun v hv => scans_lit hescape (hvs v hv)
    have hlist := scans_joinText (Or.inr (Or.inl rfl)) hcomma hall
      fun hnil => hne (List.map_eq_nil_iff.mp hnil)
    have htext : Leaf.sql ses (.isIn field vs) = field ++ ' ' :: ("IN ".toList ++
        '(' :: (joinText ", ".toList (vs.map (Lit.sql ses)) ++ [')'])) := by
      show field ++ " IN (".toList ++ _ ++ [')'] = _
      simp only [List.append_assoc]
      rfl
    rw [htext]
    show Scans _ (flattenAll [wordItem field, kwItem "IN", .group _])
    rw [flattenAll_cons, flattenAll_cons, flattenAll_cons, flattenAll_nil, List.append_nil]
    exact (scans_column hf).space (hin.scans_append hlist.parens)
  | between field lo hi =>
    exact scans_between h.1 (scans_lit hescape h.2.1) (scans_lit hescape h.2.2)
  | object sqlLike names =>
    have hor : Runs .start (' ' :: "OR ".toList) (kwItem "OR").flatten .start := ⟨rfl⟩
    have hall : List.Forall₂ (fun s is => Scans s (flattenAll is))
        (names.map (designationSql ses sqlLike)) (names.map (designationItems ses sqlLike)) := by
      rw [List.forall₂_map_left_iff, List.forall₂_map_right_iff]
      exact List.forall₂_same.mpr fun d _ => scans_designation hescape sqlLike d
    have hlist := scans_joinText (Or.inl rfl) hor hall fun hnil => h (List.map_eq_nil_iff.mp hnil)
    show Scans _ (flattenAll [.group _])
    rw [flattenAll_cons, flattenAll_nil, List.append_nil]
    exact hlist.parens
  | keywordPresent kw negated =>
    refine scans_negated (scans_keyword kw ?_)
    rw [List.append_nil]
    exact scans_quoted hescape kw
  | keyword kw sqlOp v =>
    refine scans_keyword kw ?_
    have hand : Runs .start "AND ".toList (kwItem "AND").flatten .start := ⟨rfl⟩
    exact (scans_quoted hescape kw).space (hand.scans_append (scans_keywordCond hescape h.1 h.2))
  | cone ra dec radius => exact scans_cone _ _ _
  | tagged tag negated => exact scans_negated (scans_tagged hescape tag)
  | inCollection collection => exact scans_inCollection hescape collection

mutual

/-- **The text of a filter has its items' tokens.** -/
theorem Cond.scans : ∀ c : Cond, c.Holds Leaf.Allowed → Scans (c.sql ses) (flattenAll (c.items ses))
  | .always, _ => by
    have hone : Runs .start "1=1".toList [.atom (.number ['1']), .atom (.sym ['='])] (.number ['1']) :=
      ⟨rfl⟩
    exact hone.scans (closed_number _)
  | .leaf _, h => Leaf.scans hescape h
  | .all cs, h => by
    have hand : Runs .start (' ' :: "AND ".toList) (kwItem "AND").flatten .start := ⟨rfl⟩
    have hne : itemsAll ses cs ≠ [] := by
      cases cs with
      | nil => exact absurd rfl h.1
      | cons c cs => exact List.cons_ne_nil _ _
    show Scans _ (flattenAll [.group _])
    rw [flattenAll_cons, flattenAll_nil, List.append_nil]
    exact (scans_joinText (Or.inl rfl) hand (scansAll cs h.2) hne).parens
  | .any cs, h => by
    have hor : Runs .start (' ' :: "OR ".toList) (kwItem "OR").flatten .start := ⟨rfl⟩
    have hne : itemsAll ses cs ≠ [] := by
      cases cs with
      | nil => exact absurd rfl h.1
      | cons c cs => exact List.cons_ne_nil _ _
    show Scans _ (flattenAll [.group _])
    rw [flattenAll_cons, flattenAll_nil, List.append_nil]
    exact (scans_joinText (Or.inl rfl) hor (scansAll cs h.2) hne).parens
  | .neg c, h => by
    have hnot : Runs .start "NOT ".toList (kwItem "NOT").flatten .start := ⟨rfl⟩
    have hall := hnot.scans_append (Cond.scans c h).parens
    have htext : Cond.sql ses (.neg c) = "NOT ".toList ++ '(' :: (c.sql ses ++ [')']) := by
      show "NOT (".toList ++ c.sql ses ++ [')'] = _
      rw [List.append_assoc]
      rfl
    rw [htext]
    show Scans _ (flattenAll [kwItem "NOT", .group _])
    rw [flattenAll_cons, flattenAll_cons, flattenAll_nil, List.append_nil]
    exact hall

theorem scansAll : ∀ cs : List Cond, AllHold Leaf.Allowed cs →
    List.Forall₂ (fun s is => Scans s (flattenAll is)) (sqlAll ses cs) (itemsAll ses cs)
  | [], _ => .nil
  | c :: cs, h => .cons (Cond.scans c h.1) (scansAll cs h.2)

end

end Scanning

end StarBase.Query
