import StarBase.Lib.Interning
import StarBase.Lib.Transaction

/-!
# Answers that outlive a rollback

A transaction looks names up in a table and remembers the answers.  When it is rolled back the
table has its rows again, but what was remembered stays, and so does the counter of ids.  The next
attempt makes the same lookups, and some of them are answered from memory.

* `Desk` — the answers remembered, and the table;
* `Desk.look`, `Desk.lookAll` — one lookup, and several;
* `lookAll_moved` — **PROVED**: lookups that add no row do not depend on the counter;
* `Left` — what attempts leave that made the first of the lookups and were rolled back;
* `Ahead` — one desk is where another will be after the first of the lookups to come;
* `Ahead.look` — **PROVED**: a desk that is ahead gives the same answers, and stays ahead;
* `Looks` — which lookups a program makes, whatever errors strike it.
-/

namespace Memo

open Relational Interning Transactions

variable {ρ κ : Type*} {ν α : Type} {K : Keying ρ κ}

/-- The answers remembered, and the table. -/
structure Desk (K : Keying ρ κ) (ν : Type) where
  cache : List (ν × Option ℕ)
  table : Table K

/-- A table that passes the next `n` ids over. -/
def skipIds (T : Table K) (n : ℕ) : Table K := T.bump (T.next + n)

def Desk.moved (d : Desk K ν) (n : ℕ) : Desk K ν := { d with table := skipIds d.table n }

@[simp] theorem skipIds_rows (T : Table K) (n : ℕ) : (skipIds T n).rows = T.rows := rfl

@[simp] theorem skipIds_next (T : Table K) (n : ℕ) : (skipIds T n).next = T.next + n :=
  Nat.max_eq_right (Nat.le_add_right _ _)

@[simp] theorem moved_table (d : Desk K ν) (n : ℕ) : (d.moved n).table = skipIds d.table n := rfl

theorem desk_eq {d e : Desk K ν} (hcache : d.cache = e.cache) (htable : d.table = e.table) :
    d = e := by
  cases d
  cases e
  cases hcache
  cases htable
  rfl

/-- A table with the same rows and a counter not behind is the table with its counter moved. -/
theorem eq_skipIds {T U : Table K} (hrows : U.rows = T.rows) (hnext : T.next ≤ U.next) :
    U = skipIds T (U.next - T.next) := by
  refine Table.ext_rows hrows ?_
  rw [skipIds_next]
  omega

theorem skipIds_zero (T : Table K) : skipIds T 0 = T := Table.ext_rows rfl (skipIds_next T 0)

theorem skipIds_skipIds (T : Table K) (m n : ℕ) : skipIds (skipIds T m) n = skipIds T (m + n) := by
  refine Table.ext_rows rfl ?_
  simp only [skipIds_next]
  omega

theorem moved_zero (d : Desk K ν) : d.moved 0 = d := by
  unfold Desk.moved
  rw [skipIds_zero]

theorem moved_moved (d : Desk K ν) (m n : ℕ) : (d.moved m).moved n = d.moved (m + n) := by
  unfold Desk.moved
  rw [skipIds_skipIds]

/-! ### Answers -/

section Answer

variable [DecidableEq κ] {T : Table K} {q : Ask K}

/-- An answer keeps the rows there are and adds one at most. -/
theorem rows_answer (q : Ask K) (T : Table K) : T.rows <+: (q.answer T).2.rows := by
  cases q with
  | given found => exact List.prefix_rfl
  | listed i name => exact List.prefix_rfl
  | make k row name =>
    show T.rows <+: (T.upsert k row (.keep K)).rows
    rw [Table.rows_insertIgnore]
    exact List.prefix_append _ _

theorem next_answer (q : Ask K) (T : Table K) : T.next ≤ (q.answer T).2.next := by
  cases q with
  | given found => exact Nat.le_refl _
  | listed i name => exact Nat.le_refl _
  | make k row name =>
    show T.next ≤ (T.upsert k row (.keep K)).next
    rw [Table.upsert_next]
    omega

/-- An id in use after an answer was in use, or was not given out. -/
theorem mem_ids_answer {i : ℕ} (h : i ∈ (q.answer T).2.ids) : i ∈ T.ids ∨ T.next ≤ i := by
  cases q with
  | given found => exact Or.inl h
  | listed j name => exact Or.inl h
  | make k row name =>
    obtain ⟨r, hr, rfl⟩ := Table.mem_ids.mp h
    have hr' : r ∈ (T.upsert k row (.keep K)).rows := hr
    rw [Table.rows_insertIgnore, List.mem_append] at hr'
    rcases hr' with hold | hnew
    · exact Or.inl (Table.id_mem_ids hold)
    · split at hnew
      · rw [List.mem_singleton.mp hnew, row.id_make]
        exact Or.inr (Nat.le_refl _)
      · exact absurd hnew List.not_mem_nil

/-- An answer that adds no row does not depend on the counter. -/
theorem answer_skipIds (h : (q.answer T).2.rows = T.rows) (n : ℕ) :
    q.answer (skipIds T n) = ((q.answer T).1, skipIds (q.answer T).2 n) := by
  cases q with
  | given found => rfl
  | listed i name => rfl
  | make k row name =>
    have hrows : (T.upsert k row (.keep K)).rows = T.rows := h
    have hsome : (T.get k).isNone = false := by
      rw [Table.rows_insertIgnore] at hrows
      cases hnone : (T.get k).isNone with
      | false => rfl
      | true =>
        rw [hnone, if_pos rfl] at hrows
        exact absurd (congrArg List.length hrows) (by simp)
    have hput : (skipIds T n).upsert k row (.keep K) = skipIds (T.upsert k row (.keep K)) n := by
      refine Table.ext_rows ?_ ?_
      · have hsome' : ((skipIds T n).get k).isNone = false := hsome
        simp only [skipIds_rows, Table.rows_insertIgnore, hsome, hsome', Bool.false_eq_true, if_false]
      · simp only [skipIds_next, Table.upsert_next]
        omega
    show (((_ : Table K).get name).map K.id, _) = _
    rw [hput]
    rfl

/-- The name an inserted row is read back by is its key. -/
def ReadBack : Ask K → Prop
  | .make k _ name => name = k
  | _ => True

/-- An answer that adds a row is the row's id. -/
theorem answer_of_new (h : (q.answer T).2.rows ≠ T.rows) (hback : ReadBack q) :
    (q.answer T).1 = some T.next ∧ (q.answer T).2.next = T.next + 1 := by
  cases q with
  | given found => exact absurd rfl h
  | listed i name => exact absurd rfl h
  | make k row name =>
    obtain rfl : name = k := hback
    have hnone : T.get name = none := by
      cases hget : T.get name with
      | none => rfl
      | some r =>
        refine absurd ?_ h
        show (T.upsert name row (.keep K)).rows = T.rows
        rw [Table.rows_insertIgnore, hget]
        exact List.append_nil _
    refine ⟨?_, Table.upsert_next⟩
    show ((T.upsert name row (.keep K)).get name).map K.id = _
    rw [Table.get_upsert_of_none hnone, Option.map_some, row.id_make]

end Answer

/-! ### Lookups -/

section Look

variable [DecidableEq κ] [BEq ν] (key : α → ν) (ask : α → Ask K)

/-- One lookup: the answer remembered, or a new one that is remembered from then on. -/
def Desk.look (d : Desk K ν) (a : α) : Option ℕ × Desk K ν :=
  match d.cache.lookup (key a) with
  | some found => (found, d)
  | none =>
    let r := (ask a).answer d.table
    (r.1, ⟨(key a, r.1) :: d.cache, r.2⟩)

def Desk.lookAll (d : Desk K ν) : List α → Desk K ν
  | [] => d
  | a :: as => (d.look key ask a).2.lookAll as

section Known

variable {key ask} {d : Desk K ν} {a : α}

theorem look_of_known {found : Option ℕ} (h : d.cache.lookup (key a) = some found) :
    d.look key ask a = (found, d) := by
  unfold Desk.look
  rw [h]

theorem look_of_unknown (h : d.cache.lookup (key a) = none) :
    d.look key ask a = (((ask a).answer d.table).1,
      ⟨(key a, ((ask a).answer d.table).1) :: d.cache, ((ask a).answer d.table).2⟩) := by
  unfold Desk.look
  rw [h]

end Known

theorem lookAll_append (d : Desk K ν) (as bs : List α) :
    d.lookAll key ask (as ++ bs) = (d.lookAll key ask as).lookAll key ask bs := by
  induction as generalizing d with
  | nil => rfl
  | cons a as ih => exact ih _

/-- What a lookup changes of the table is what an answer changes. -/
theorem look_table (d : Desk K ν) (a : α) : (d.look key ask a).2.table = d.table ∨
    (d.look key ask a).2.table = ((ask a).answer d.table).2 := by
  cases h : d.cache.lookup (key a) with
  | some found =>
    rw [look_of_known h]
    exact Or.inl rfl
  | none =>
    rw [look_of_unknown h]
    exact Or.inr rfl

theorem rows_look (d : Desk K ν) (a : α) :
    d.table.rows <+: (d.look key ask a).2.table.rows := by
  rcases look_table key ask d a with h | h
  · exact h ▸ List.prefix_rfl
  · rw [h]
    exact rows_answer _ _

theorem next_look (d : Desk K ν) (a : α) : d.table.next ≤ (d.look key ask a).2.table.next := by
  rcases look_table key ask d a with h | h
  · exact h ▸ Nat.le_refl _
  · rw [h]
    exact next_answer _ _

theorem rows_lookAll (d : Desk K ν) (as : List α) :
    d.table.rows <+: (d.lookAll key ask as).table.rows := by
  induction as generalizing d with
  | nil => exact List.prefix_rfl
  | cons a as ih => exact (rows_look key ask d a).trans (ih _)

theorem next_lookAll (d : Desk K ν) (as : List α) :
    d.table.next ≤ (d.lookAll key ask as).table.next := by
  induction as generalizing d with
  | nil => exact Nat.le_refl _
  | cons a as ih => exact Nat.le_trans (next_look key ask d a) (ih _)

variable {key ask} {d : Desk K ν} {a : α} {as : List α}

/-- There is no row with this id and there will be none. -/
def Gone (i : ℕ) (T : Table K) : Prop := i ∉ T.ids ∧ i < T.next

theorem Gone.look {i : ℕ} (h : Gone i d.table) (a : α) :
    Gone i (d.look key ask a).2.table := by
  rcases look_table key ask d a with he | he <;> rw [he]
  · exact h
  · refine ⟨fun hi => ?_, Nat.lt_of_lt_of_le h.2 (next_answer _ _)⟩
    rcases mem_ids_answer hi with hold | hnew
    · exact h.1 hold
    · exact absurd h.2 (Nat.not_lt.mpr hnew)

theorem Gone.lookAll {i : ℕ} (h : Gone i d.table) (as : List α) :
    Gone i (d.lookAll key ask as).table := by
  induction as generalizing d with
  | nil => exact h
  | cons a as ih => exact ih (h.look a)

section Lawful

variable [LawfulBEq ν]

/-- What is remembered is not forgotten. -/
theorem known_look {k : ν} {found : Option ℕ} (h : d.cache.lookup k = some found) (a : α) :
    (d.look key ask a).2.cache.lookup k = some found := by
  cases hkey : d.cache.lookup (key a) with
  | some g =>
    rw [look_of_known hkey]
    exact h
  | none =>
    have hne : k ≠ key a := by
      rintro rfl
      rw [h] at hkey
      cases hkey
    rw [look_of_unknown hkey]
    show List.lookup k (_ :: _) = _
    rw [List.lookup_cons, beq_eq_false_iff_ne.mpr hne]
    exact h

theorem known_lookAll {k : ν} {found : Option ℕ} (h : d.cache.lookup k = some found)
    (as : List α) : (d.lookAll key ask as).cache.lookup k = some found := by
  induction as generalizing d with
  | nil => exact h
  | cons a as ih => exact ih (known_look h a)

/-- The answer of a lookup is remembered. -/
theorem look_known (d : Desk K ν) (a : α) :
    (d.look key ask a).2.cache.lookup (key a) = some (d.look key ask a).1 := by
  cases hkey : d.cache.lookup (key a) with
  | some g =>
    rw [look_of_known hkey]
    exact hkey
  | none =>
    rw [look_of_unknown hkey]
    exact List.lookup_cons_self

/-- Lookups made before change nothing when they are made again. -/
theorem lookAll_again (d : Desk K ν) {P as : List α} (hP : P <+: as) :
    (d.lookAll key ask as).lookAll key ask P = d.lookAll key ask as := by
  induction as generalizing d P with
  | nil =>
    obtain rfl : P = [] := List.prefix_nil.mp hP
    rfl
  | cons a as ih =>
    cases P with
    | nil => rfl
    | cons b P =>
      obtain ⟨rfl, htail⟩ := List.cons_prefix_cons.mp hP
      show (((d.look key ask b).2.lookAll key ask as).look key ask b).2.lookAll key ask P = _
      rw [look_of_known (known_lookAll (look_known d b) as)]
      exact ih _ htail

omit [LawfulBEq ν] in
/-- **Lookups that add no row do not depend on the counter.** -/
theorem lookAll_moved (h : (d.lookAll key ask as).table.rows = d.table.rows) (n : ℕ) :
    (d.moved n).lookAll key ask as = (d.lookAll key ask as).moved n := by
  induction as generalizing d with
  | nil => rfl
  | cons a as ih =>
    have hfirst : (d.look key ask a).2.table.rows = d.table.rows := by
      refine ((rows_look key ask d a).eq_of_length_le ?_).symm
      rw [← h]
      exact (rows_lookAll key ask _ as).length_le
    have hmove : ((d.moved n).look key ask a).2 = (d.look key ask a).2.moved n := by
      cases hkey : d.cache.lookup (key a) with
      | some found =>
        have hkey' : (d.moved n).cache.lookup (key a) = some found := hkey
        rw [look_of_known hkey, look_of_known hkey']
      | none =>
        have hkey' : (d.moved n).cache.lookup (key a) = none := hkey
        rw [look_of_unknown hkey] at hfirst ⊢
        rw [look_of_unknown hkey', moved_table, answer_skipIds hfirst]
        rfl
    show ((d.moved n).look key ask a).2.lookAll key ask as = _
    rw [hmove]
    exact ih (h.trans hfirst.symm)

/-- A lookup among those made remembers an id that was not given out before. -/
theorem lookAll_new (h : (d.lookAll key ask as).table.rows ≠ d.table.rows)
    (hback : ∀ a ∈ as, ReadBack (ask a)) : ∃ a ∈ as, ∃ i,
      (d.lookAll key ask as).cache.lookup (key a) = some (some i) ∧ d.table.next ≤ i ∧
        i < (d.lookAll key ask as).table.next := by
  induction as generalizing d with
  | nil => exact absurd rfl h
  | cons a as ih =>
    by_cases hfirst : (d.look key ask a).2.table.rows = d.table.rows
    · obtain ⟨b, hb, i, hi, hlow, hhigh⟩ := ih (fun he => h (he.trans hfirst))
        fun b hb => hback b (List.mem_cons_of_mem _ hb)
      exact ⟨b, List.mem_cons_of_mem _ hb, i, hi,
        Nat.le_trans (next_look key ask d a) hlow, hhigh⟩
    · have hkey : d.cache.lookup (key a) = none := by
        cases hkey : d.cache.lookup (key a) with
        | none => rfl
        | some found =>
          rw [look_of_known hkey] at hfirst
          exact absurd rfl hfirst
      rw [look_of_unknown hkey] at hfirst
      obtain ⟨hid, hnext⟩ := answer_of_new hfirst (hback a List.mem_cons_self)
      refine ⟨a, List.mem_cons_self, d.table.next, ?_, Nat.le_refl _, ?_⟩
      · refine known_lookAll ?_ as
        rw [look_known, look_of_unknown hkey, hid]
      · refine Nat.lt_of_lt_of_le ?_ (next_lookAll key ask _ as)
        rw [look_of_unknown hkey]
        show _ < ((ask a).answer d.table).2.next
        omega

/-! ### Attempts that were rolled back -/

variable (key ask)

/-- What an attempt leaves of `d` that made the lookups `as` and was rolled back: what it remembers
and the counter. -/
structure RolledBack (as : List α) (d e : Desk K ν) : Prop where
  cache : e.cache = (d.lookAll key ask as).cache
  rows : e.table.rows = d.table.rows
  next : (d.lookAll key ask as).table.next ≤ e.table.next

/-- What attempts leave of `s` that made the first of the lookups `as` and were rolled back.
Either one of them remembers the id of a row that went, or they remember what the first of the
lookups give that add no row. -/
structure Left (as : List α) (s t : Desk K ν) : Prop where
  rows : t.table.rows = s.table.rows
  next : s.table.next ≤ t.table.next
  memory : (∃ a ∈ as, ∃ i, t.cache.lookup (key a) = some (some i) ∧ Gone i t.table) ∨
    ∃ P n, P <+: as ∧ (s.moved n).lookAll key ask P = t

omit [LawfulBEq ν] in
theorem Left.refl (as : List α) (s : Desk K ν) : Left key ask as s s :=
  ⟨rfl, Nat.le_refl _, Or.inr ⟨[], 0, List.nil_prefix, moved_zero s⟩⟩

variable {key ask} {s t u : Desk K ν} {P : List α}

/-- **Another attempt** that is rolled back leaves what attempts leave. -/
theorem Left.again (h : Left key ask as s t) (hback : ∀ a ∈ as, ReadBack (ask a))
    (hP : P <+: as) (hu : RolledBack key ask P t u) : Left key ask as s u := by
  have hnext : t.table.next ≤ u.table.next :=
    Nat.le_trans (next_lookAll key ask t P) hu.next
  refine ⟨hu.rows.trans h.rows, Nat.le_trans h.next hnext, ?_⟩
  rcases h.memory with ⟨a, ha, i, hi, hgone⟩ | ⟨Q, n, hQ, rfl⟩
  · -- the id that is gone stays remembered
    refine Or.inl ⟨a, ha, i, ?_, fun hmem => hgone.1 ?_, Nat.lt_of_lt_of_le hgone.2 hnext⟩
    · rw [hu.cache]
      exact known_lookAll hi P
    · unfold Table.ids at hmem ⊢
      rw [← hu.rows]
      exact hmem
  · -- the longer of the two lists of lookups is remembered
    obtain ⟨R, hR, hall⟩ : ∃ R, R <+: as ∧ ((s.moved n).lookAll key ask Q).lookAll key ask P =
        (s.moved n).lookAll key ask R := by
      rcases List.prefix_or_prefix_of_prefix hQ hP with hQP | hPQ
      · obtain ⟨S, rfl⟩ := hQP
        refine ⟨Q ++ S, hP, ?_⟩
        rw [lookAll_append, lookAll_again _ List.prefix_rfl, lookAll_append]
      · exact ⟨Q, hQ, lookAll_again _ hPQ⟩
    have hrows : u.table.rows = s.table.rows := hu.rows.trans h.rows
    obtain ⟨hcache, -, hcount⟩ := hu
    rw [hall] at hcache hcount
    by_cases hsame : ((s.moved n).lookAll key ask R).table.rows = (s.moved n).table.rows
    · refine Or.inr ⟨R, n + (u.table.next - ((s.moved n).lookAll key ask R).table.next), hR, ?_⟩
      rw [← moved_moved, lookAll_moved hsame]
      exact desk_eq hcache.symm (eq_skipIds (hrows.trans hsame.symm) hcount).symm
    · obtain ⟨a, ha, i, hi, hlow, hhigh⟩ :=
        lookAll_new hsame fun a ha => hback a (hR.subset ha)
      refine Or.inl ⟨a, hR.subset ha, i, by rw [hcache]; exact hi, fun hmem => ?_,
        Nat.lt_of_lt_of_le hhigh hcount⟩
      have hold : i ∈ s.table.ids := by
        unfold Table.ids at hmem ⊢
        rw [← hrows]
        exact hmem
      have hlt := Table.lt_next_of_mem_ids hold
      rw [moved_table, skipIds_next] at hlow
      omega

/-! ### A desk that is ahead -/

variable (key ask)

/-- `e` is where `d` will be after the first of the lookups `as`, which add no row. -/
def Ahead (as : List α) (d e : Desk K ν) : Prop :=
  ∃ P, P <+: as ∧ d.lookAll key ask P = e ∧ e.table.rows = d.table.rows

variable {key ask} {e : Desk K ν}

omit [LawfulBEq ν] in
theorem Ahead.rows (h : Ahead key ask as d e) : e.table.rows = d.table.rows :=
  h.choose_spec.2.2

omit [LawfulBEq ν] in
theorem Ahead.eq_of_nil (h : Ahead key ask [] d e) : d = e := by
  obtain ⟨P, hP, rfl, -⟩ := h
  rw [List.prefix_nil.mp hP]
  rfl

/-- **A desk that is ahead** gives the same answers, and stays ahead. -/
theorem Ahead.look (h : Ahead key ask (a :: as) d e) :
    (d.look key ask a).1 = (e.look key ask a).1 ∧
      Ahead key ask as (d.look key ask a).2 (e.look key ask a).2 := by
  obtain ⟨P, hP, rfl, hrows⟩ := h
  cases P with
  | nil => exact ⟨rfl, [], List.nil_prefix, rfl, rfl⟩
  | cons b P =>
    obtain ⟨rfl, htail⟩ := List.cons_prefix_cons.mp hP
    have hhit : (d.lookAll key ask (b :: P)).look key ask b =
        ((d.look key ask b).1, d.lookAll key ask (b :: P)) :=
      look_of_known (known_lookAll (look_known d b) P)
    rw [hhit]
    refine ⟨rfl, P, htail, rfl, ?_⟩
    rw [hrows]
    refine (rows_look key ask d b).eq_of_length_le ?_
    rw [← hrows]
    exact (rows_lookAll key ask (d.look key ask b).2 P).length_le

end Lawful

/-! ### The lookups of a program -/

section Program

variable {σ ε β γ : Type} (desk : σ → Desk K ν) (key ask)

/-- Whatever errors strike `m`, it makes the first of the lookups `as`, and all of them if it
returns; the counter moves as far at least. -/
def Looks (as : List α) (m : Tx σ ε β) : Prop := ∀ s fs,
  (∃ P, P <+: as ∧ (desk (m s fs).store).cache = ((desk s).lookAll key ask P).cache ∧
    ((desk s).lookAll key ask P).table.next ≤ (desk (m s fs).store).table.next) ∧
  ∀ b, (m s fs).result = .ok b → desk (m s fs).store = (desk s).lookAll key ask as

variable {desk key ask}

/-- A program that leaves the desk alone makes no lookup. -/
theorem looks_of_same {m : Tx σ ε β} (h : Within (fun s t => desk t = desk s) m) :
    Looks key ask desk [] m := fun s fs =>
  ⟨⟨[], List.prefix_rfl, congrArg Desk.cache (h s fs), by rw [h s fs]; exact Nat.le_refl _⟩,
    fun _ _ => h s fs⟩

theorem looks_pure (b : β) : Looks key ask desk [] (pure b : Tx σ ε β) :=
  looks_of_same fun _ _ => rfl

theorem looks_bind {bs : List α} {m : Tx σ ε β} {f : β → Tx σ ε γ}
    (hm : Looks key ask desk as m) (hf : ∀ b, Looks key ask desk bs (f b)) :
    Looks key ask desk (as ++ bs) (m >>= f) := by
  intro s fs
  obtain ⟨⟨P, hP, hcache, hnext⟩, hdone⟩ := hm s fs
  rw [bind_apply]
  unfold Outcome.andThen
  cases hres : (m s fs).result with
  | error e =>
    exact ⟨⟨P, hP.trans (List.prefix_append _ _), hcache, hnext⟩, fun _ h => nomatch h⟩
  | ok b =>
    obtain ⟨⟨Q, hQ, hcache', hnext'⟩, hdone'⟩ := hf b (m s fs).store (m s fs).rest
    rw [hdone b hres] at hcache' hnext' hdone'
    refine ⟨⟨as ++ Q, (List.prefix_append_right_inj as).mpr hQ, ?_, ?_⟩, fun c hc => ?_⟩
    · rw [lookAll_append]
      exact hcache'
    · rw [lookAll_append]
      exact hnext'
    · rw [lookAll_append]
      exact hdone' c hc

/-- A program that fails makes the first of any lookups. -/
theorem looks_throw (e : ε) (as : List α) :
    Looks key ask desk as (step fun s => (.error e, s) : Tx σ ε β) := fun _ _ =>
  ⟨⟨[], List.nil_prefix, rfl, Nat.le_refl _⟩, fun _ h => nomatch h⟩

/-- **A transaction** that fails leaves the desk as it was, or rolled back. -/
theorem rolledBack_of_error {undo : σ → σ → σ} {body : Tx σ ε β} (h : Looks key ask desk as body)
    (hcache : ∀ s t, (desk (undo s t)).cache = (desk t).cache)
    (hrows : ∀ s t, (desk (undo s t)).table.rows = (desk s).table.rows)
    (hnext : ∀ s t, (desk t).table.next ≤ (desk (undo s t)).table.next) {s : σ}
    {fs : Schedule ε} {e : ε} (he : (transaction undo body s fs).result = .error e) :
    ∃ P, P <+: as ∧
      RolledBack key ask P (desk s) (desk (transaction undo body s fs).store) := by
  rcases transaction_cases undo body s fs with ⟨e', rest, hrun⟩ | ⟨b, hb, hrun⟩ | ⟨e', hrun⟩
  · rw [hrun]
    exact ⟨[], List.nil_prefix, rfl, rfl, Nat.le_refl _⟩
  · rw [hrun, hb] at he
    cases he
  · rw [hrun]
    have hcommit : ∀ b : β, Looks key ask desk [] (commit b : Tx σ ε β) := fun b =>
      looks_of_same (within_commit (Q := fun s t => desk t = desk s) (fun _ => rfl) b)
    obtain ⟨⟨P, hP, hc, hn⟩, -⟩ := looks_bind h hcommit s fs.tail
    rw [List.append_nil] at hP
    exact ⟨P, hP, (hcache _ _).trans hc, hrows _ _, Nat.le_trans hn (hnext _ _)⟩

end Program

end Look

end Memo
