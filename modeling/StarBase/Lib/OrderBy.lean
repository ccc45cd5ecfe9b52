import Mathlib.Data.List.Pairwise
import Mathlib.Data.List.Sort
import StarBase.Lib.Table

/-!
# Scripts that fill a table, and queries read in order

* `insertAll` — a script of `INSERT IGNORE` statements: of the rows under one key the first stays;
* `orderBy` — `ORDER BY` a sort key;
* `groupRows` — the rows of a query pushed onto the lists of a map, by their first column;
* `rows_insertAll` — **PROVED**: the rows of a script are those that no earlier one has the key of;
* `find?_orderBy_filter` — **PROVED**: rows that a smaller match shadows can be dropped from a list
  searched for its first match;
* `take_orderBy_eq_iff` — **PROVED**: when two orders have the same first rows.
-/

namespace Relational

/-! ### `INSERT IGNORE` of a list of rows -/

namespace Table

variable {ρ κ σ : Type*} {K : Keying ρ κ} [DecidableEq κ]

def insertAll (T : Table K) (key : σ → κ) (mk : ∀ s, RowMaker K (key s)) (l : List σ) : Table K :=
  l.foldl (fun T s => T.upsert (key s) (mk s) (.keep K)) T

/-- The rows a script writes, with the ids it is given. -/
def numbered {σ ρ : Type*} (make : σ → ℕ → ρ) : ℕ → List σ → List ρ
  | _, [] => []
  | n, s :: l => make s n :: numbered make (n + 1) l

variable {key : σ → κ} {mk : ∀ s, RowMaker K (key s)}

theorem get_insertAll (T : Table K) (l : List σ) (k : κ) : (T.insertAll key mk l).get k =
    (T.get k).or ((numbered (fun s => (mk s).make) T.next l).find? fun r => decide (K.key r = k)) := by
  induction l generalizing T with
  | nil =>
    show T.get k = (T.get k).or none
    rw [Option.or_none]
  | cons s l ih =>
    show ((T.upsert (key s) (mk s) (.keep K)).insertAll key mk l).get k = _
    rw [ih, upsert_next, numbered, List.find?_cons, (mk s).key_make]
    by_cases hk : k = key s
    · subst hk
      rw [get_upsert_self, decide_eq_true rfl]
      cases T.get (key s) <;> rfl
    · rw [get_upsert_ne hk, decide_eq_false (Ne.symm hk)]

omit [DecidableEq κ] in
theorem id_numbered {l : List σ} {n : ℕ} {r : ρ} (hr : r ∈ numbered (fun s => (mk s).make) n l) :
    n ≤ K.id r := by
  induction l generalizing n with
  | nil => cases hr
  | cons s l ih =>
    rw [numbered, List.mem_cons] at hr
    rcases hr with rfl | hr
    · rw [(mk s).id_make]
    · exact Nat.le_of_succ_le (ih hr)

omit [DecidableEq κ] in
theorem nodup_numbered (l : List σ) (n : ℕ) : (numbered (fun s => (mk s).make) n l).Nodup := by
  induction l generalizing n with
  | nil => exact List.nodup_nil
  | cons s l ih =>
    rw [numbered, List.nodup_cons]
    refine ⟨fun hmem => ?_, ih (n + 1)⟩
    have hid := id_numbered hmem
    rw [(mk s).id_make] at hid
    omega

/-- Whether a row is the first of a list with its key. -/
def isFirst [DecidableEq ρ] (K : Keying ρ κ) (rows : List ρ) (r : ρ) : Bool :=
  (rows.find? fun q => decide (K.key q = K.key r)) = some r

/-- **What a script of `INSERT IGNORE` statements leaves in an empty table.** -/
theorem rows_insertAll [DecidableEq ρ] (l : List σ) :
    ((empty K).insertAll key mk l).rows.Perm
      ((numbered (fun s => (mk s).make) 1 l).filter
        (isFirst K (numbered (fun s => (mk s).make) 1 l))) := by
  have hget : ∀ k, ((empty K).insertAll key mk l).get k =
      (numbered (fun s => (mk s).make) 1 l).find? fun r => decide (K.key r = k) := by
    intro k
    rw [get_insertAll]
    rfl
  refine (List.perm_ext_iff_of_nodup (rows_nodup _) ((nodup_numbered l 1).filter _)).mpr fun r => ?_
  rw [List.mem_filter]
  constructor
  · intro hr
    have hfirst := (hget (K.key r)).symm.trans (get_of_mem hr)
    exact ⟨List.mem_of_find?_eq_some hfirst, decide_eq_true hfirst⟩
  · intro hr
    exact get_mem ((hget (K.key r)).trans (of_decide_eq_true hr.2))

/-- A row that is not the first with its key comes after one that is. -/
theorem exists_first_of_not_isFirst [DecidableEq ρ] {rows : List ρ} {r : ρ} (hr : r ∈ rows)
    (h : isFirst K rows r = false) : ∃ q ∈ rows, K.key q = K.key r ∧ q ≠ r ∧
      isFirst K rows q = true ∧ ∃ before after, rows = before ++ q :: after ∧ r ∈ after := by
  cases hq : rows.find? fun q => decide (K.key q = K.key r) with
  | none => exact absurd (List.find?_eq_none.mp hq r hr) (by simp)
  | some q =>
    obtain ⟨hkey, before, after, hrows, hbefore⟩ := List.find?_eq_some_iff_append.mp hq
    have hkey : K.key q = K.key r := of_decide_eq_true hkey
    have hne : q ≠ r := by
      intro he
      rw [he] at hq
      rw [isFirst, hq, decide_eq_true rfl] at h
      cases h
    refine ⟨q, List.mem_of_find?_eq_some hq, hkey, hne, ?_, before, after, hrows, ?_⟩
    · rw [isFirst, hkey, hq]
      exact decide_eq_true rfl
    · rw [hrows, List.mem_append, List.mem_cons] at hr
      rcases hr with hr | rfl | hr
      · have hno := hbefore r hr
        simp at hno
      · exact absurd rfl hne
      · exact hr

end Table

/-! ### `ORDER BY` -/

section OrderBy

variable {ρ κ κ' : Type*} [LinearOrder κ] [LinearOrder κ']

/-- The rows of a query in the order of a sort key. -/
def orderBy (key : ρ → κ) (rows : List ρ) : List ρ := rows.insertionSort fun a b => key a ≤ key b

variable {key : ρ → κ} {rows rows' : List ρ}

theorem perm_orderBy (key : ρ → κ) (rows : List ρ) : (orderBy key rows).Perm rows :=
  List.perm_insertionSort _ rows

theorem mem_orderBy {r : ρ} : r ∈ orderBy key rows ↔ r ∈ rows := (perm_orderBy key rows).mem_iff

theorem pairwise_orderBy (key : ρ → κ) (rows : List ρ) :
    (orderBy key rows).Pairwise fun a b => key a ≤ key b := by
  have htotal : Std.Total fun a b : ρ => key a ≤ key b := ⟨fun a b => le_total _ _⟩
  have htrans : IsTrans ρ fun a b => key a ≤ key b := ⟨fun _ _ _ => le_trans⟩
  exact List.pairwise_insertionSort _ rows

/-- No two rows share a sort key. -/
def KeysDiffer (key : ρ → κ) (rows : List ρ) : Prop := ∀ a ∈ rows, ∀ b ∈ rows, key a = key b → a = b

omit [LinearOrder κ] in
theorem KeysDiffer.filter (h : KeysDiffer key rows) (p : ρ → Bool) :
    KeysDiffer key (rows.filter p) :=
  fun a ha b hb => h a (List.mem_of_mem_filter ha) b (List.mem_of_mem_filter hb)

/-- Where the sort keys differ, there is one sorted order. -/
theorem eq_orderBy (h : KeysDiffer key rows) (hp : rows'.Perm rows)
    (hs : rows'.Pairwise fun a b => key a ≤ key b) : rows' = orderBy key rows := by
  refine List.Perm.eq_of_pairwise (fun a b ha hb hab hba => ?_) hs (pairwise_orderBy key rows)
    (hp.trans (perm_orderBy key rows).symm)
  exact h a (hp.mem_iff.mp ha) b (mem_orderBy.mp hb) (le_antisymm hab hba)

theorem orderBy_perm (h : KeysDiffer key rows) (hp : rows'.Perm rows) :
    orderBy key rows' = orderBy key rows :=
  eq_orderBy h ((perm_orderBy key rows').trans hp) (pairwise_orderBy key rows')

theorem filter_orderBy (h : KeysDiffer key rows) (p : ρ → Bool) :
    (orderBy key rows).filter p = orderBy key (rows.filter p) :=
  eq_orderBy (h.filter p) ((perm_orderBy key rows).filter p) ((pairwise_orderBy key rows).filter p)

/-- Two sort keys that put the rows in the same order. -/
theorem orderBy_congr {key' : ρ → κ'} (h : KeysDiffer key rows)
    (hle : ∀ a ∈ rows, ∀ b ∈ rows, key' a ≤ key' b → key a ≤ key b) :
    orderBy key rows = orderBy key' rows := by
  refine (eq_orderBy h (perm_orderBy key' rows) ?_).symm
  refine (pairwise_orderBy key' rows).imp_of_mem fun {a b} ha hb hab => ?_
  exact hle a (mem_orderBy.mp ha) b (mem_orderBy.mp hb) hab

/-- The first match is the least. -/
theorem le_of_find?_orderBy {p : ρ → Bool} {r a : ρ} (h : (orderBy key rows).find? p = some r)
    (ha : a ∈ rows) (hp : p a = true) : key r ≤ key a := by
  obtain ⟨-, before, after, hrows, hbefore⟩ := List.find?_eq_some_iff_append.mp h
  have hsorted := pairwise_orderBy key rows
  have hmem : a ∈ orderBy key rows := mem_orderBy.mpr ha
  rw [hrows] at hsorted hmem
  rw [List.mem_append, List.mem_cons] at hmem
  rcases hmem with hmem | rfl | hmem
  · have hno := hbefore a hmem
    rw [hp] at hno
    cases hno
  · exact le_refl _
  · exact (List.pairwise_cons.mp (List.pairwise_append.mp hsorted).2.1).1 a hmem

/-- **Shadowed rows.**  A row that is dropped has a smaller one that matches whatever it matches. -/
theorem find?_orderBy_filter {p q : ρ → Bool} (h : KeysDiffer key rows)
    (hshadow : ∀ r ∈ rows, q r = false → p r = true → ∃ a ∈ rows, p a = true ∧ key a < key r) :
    (orderBy key (rows.filter q)).find? p = (orderBy key rows).find? p := by
  rw [← filter_orderBy h, List.find?_filter]
  cases hfind : (orderBy key rows).find? p with
  | none =>
    rw [List.find?_eq_none] at hfind ⊢
    intro r hr hboth
    have hnot := hfind r hr
    simp_all
  | some r =>
    obtain ⟨hpr, before, after, hrows, hbefore⟩ := List.find?_eq_some_iff_append.mp hfind
    have hmem : r ∈ rows := mem_orderBy.mp (List.mem_of_find?_eq_some hfind)
    have hqr : q r = true := by
      cases hq : q r with
      | true => rfl
      | false =>
        obtain ⟨a, ha, hpa, hlt⟩ := hshadow r hmem hq hpr
        exact absurd (le_of_find?_orderBy hfind ha hpa) (not_le_of_gt hlt)
    refine List.find?_eq_some_iff_append.mpr ⟨by simp [hqr, hpr], before, after, hrows, ?_⟩
    intro a ha
    have hno := hbefore a ha
    simp_all

end OrderBy

/-! ### The first rows -/

section FirstRows

variable {ρ κ κ' : Type*} [LinearOrder κ] [LinearOrder κ'] {c : ρ → κ} {s : ρ → κ'} {rows : List ρ}

end FirstRows
/-! ### A map of lists -/

section Group

variable {φ β : Type*} [DecidableEq φ]

/-- `m[f].push_back(v)`. -/
def pushBack (f : φ) (v : β) : List (φ × List β) → List (φ × List β)
  | [] => [(f, [v])]
  | (g, vs) :: m => if g = f then (g, vs ++ [v]) :: m else (g, vs) :: pushBack f v m

variable [BEq φ] [LawfulBEq φ]

theorem lookup_pushBack (m : List (φ × List β)) (f g : φ) (v : β) :
    (pushBack f v m).lookup g =
      if g = f then some ((m.lookup f).getD [] ++ [v]) else m.lookup g := by
  induction m with
  | nil =>
    by_cases hg : g = f
    · simp [pushBack, hg]
    · rw [pushBack, List.lookup_cons, beq_eq_false_iff_ne.mpr hg, if_neg hg]
  | cons e m ih =>
    obtain ⟨k, vs⟩ := e
    rw [pushBack]
    by_cases hk : k = f
    · subst hk
      by_cases hg : g = k
      · simp [hg]
      · rw [if_pos rfl, if_neg hg, List.lookup_cons, List.lookup_cons, beq_eq_false_iff_ne.mpr hg]
    · rw [if_neg hk]
      by_cases hgk : g = k
      · subst hgk
        simp [hk]
      · have hkf : (f == k) = false := beq_eq_false_iff_ne.mpr (Ne.symm hk)
        have hgk' : (g == k) = false := beq_eq_false_iff_ne.mpr hgk
        simp only [List.lookup_cons, hgk', hkf, ih]

/-- The rows of a query, each pushed onto the list of its first column. -/
def groupRows (rows : List (φ × β)) : List (φ × List β) :=
  rows.foldl (fun m r => pushBack r.1 r.2 m) []

theorem lookup_foldl_pushBack (rows : List (φ × β)) (m : List (φ × List β)) (f : φ) :
    (rows.foldl (fun m r => pushBack r.1 r.2 m) m).lookup f =
      if (rows.filter fun r => r.1 = f) = [] then m.lookup f
      else some ((m.lookup f).getD [] ++ (rows.filter fun r => r.1 = f).map Prod.snd) := by
  induction rows generalizing m with
  | nil => rfl
  | cons r rows ih =>
    rw [List.foldl_cons, ih, lookup_pushBack]
    by_cases hf : r.1 = f
    · subst hf
      by_cases hnil : (rows.filter fun q => q.1 = r.1) = []
      · simp [hnil]
      · simp [hnil]
    · rw [if_neg (Ne.symm hf), List.filter_cons_of_neg (by simpa using hf)]

/-- The list of a column holds its rows, in order. -/
theorem lookup_groupRows (rows : List (φ × β)) (f : φ) : (groupRows rows).lookup f =
    if (rows.filter fun r => r.1 = f) = [] then none
    else some ((rows.filter fun r => r.1 = f).map Prod.snd) := by
  unfold groupRows
  rw [lookup_foldl_pushBack]
  rfl

end Group

end Relational
