import Mathlib.Data.List.Nodup
import Mathlib.Data.List.Basic
import Mathlib.Tactic.Common

/-!
# Relational tables with an auto-increment id and one UNIQUE key

A table is a list of rows together with the proofs a database server keeps for it: every id is
below the auto-increment counter, no two rows share an id, and no two rows share the UNIQUE key.
The operations are the statements a program sends:

* `Table.get` — the one row with a given key (`SELECT ... LIMIT 1` by the UNIQUE key);
* `Table.upsert` — `INSERT ... ON DUPLICATE KEY UPDATE`, which takes an id from the counter even
  when it ends in an update;
* `Table.modify` — an `UPDATE` that leaves id and key alone;
* `Table.rekey` — an `UPDATE ... WHERE id = i` that may change the key, refused when the new key
  is taken;
* `Table.deleteWhere` — `DELETE ... WHERE p`.

The lemmas read every operation through `get`, so that a proof never opens the row list.
-/

namespace Relational

/-- How a row type is keyed: the auto-increment id and the UNIQUE key. -/
structure Keying (ρ κ : Type*) where
  id : ρ → ℕ
  key : ρ → κ

/-- A row to insert under key `k`, for every id it may be given. -/
structure RowMaker {ρ κ : Type*} (K : Keying ρ κ) (k : κ) where
  make : ℕ → ρ
  id_make : ∀ n, K.id (make n) = n
  key_make : ∀ n, K.key (make n) = k

/-- An assignment to a row's columns that touches neither its id nor its key. -/
structure RowUpdate {ρ κ : Type*} (K : Keying ρ κ) where
  apply : ρ → ρ
  id_apply : ∀ r, K.id (apply r) = K.id r
  key_apply : ∀ r, K.key (apply r) = K.key r

/-- The update of `INSERT IGNORE`, which leaves a row that is there alone. -/
def RowUpdate.keep {ρ κ : Type*} (K : Keying ρ κ) : RowUpdate K := ⟨id, fun _ => rfl, fun _ => rfl⟩

/-- A table: its rows, the next auto-increment id, and the constraints the server enforces. -/
structure Table {ρ κ : Type*} (K : Keying ρ κ) where
  rows : List ρ
  next : ℕ
  id_lt : ∀ r ∈ rows, K.id r < next
  id_nodup : (rows.map K.id).Nodup
  key_nodup : (rows.map K.key).Nodup

namespace Table

variable {ρ κ : Type*} {K : Keying ρ κ}

/-- The ids in use. -/
def ids (T : Table K) : List ℕ := T.rows.map K.id

theorem mem_ids {T : Table K} {i : ℕ} : i ∈ T.ids ↔ ∃ r ∈ T.rows, K.id r = i := List.mem_map

theorem id_mem_ids {T : Table K} {r : ρ} (h : r ∈ T.rows) : K.id r ∈ T.ids :=
  List.mem_map_of_mem h

theorem lt_next_of_mem_ids {T : Table K} {i : ℕ} (hi : i ∈ T.ids) : i < T.next := by
  obtain ⟨r, hr, rfl⟩ := mem_ids.mp hi
  exact T.id_lt r hr

/-- The empty table. -/
def empty (K : Keying ρ κ) : Table K where
  rows := []
  next := 1
  id_lt := by simp
  id_nodup := by simp
  key_nodup := by simp

theorem ext_rows {T U : Table K} (hr : T.rows = U.rows) (hn : T.next = U.next) : T = U := by
  cases T
  cases U
  cases hr
  cases hn
  rfl

theorem eq_of_id (T : Table K) {r s : ρ} (hr : r ∈ T.rows) (hs : s ∈ T.rows)
    (h : K.id r = K.id s) : r = s :=
  List.inj_on_of_nodup_map T.id_nodup hr hs h

theorem eq_of_key (T : Table K) {r s : ρ} (hr : r ∈ T.rows) (hs : s ∈ T.rows)
    (h : K.key r = K.key s) : r = s :=
  List.inj_on_of_nodup_map T.key_nodup hr hs h

theorem rows_nodup (T : Table K) : T.rows.Nodup := T.id_nodup.of_map

/-- At most one element of a list without repetition satisfies `p` exactly when all that do are
equal. -/
theorem length_filter_le_one_iff {α : Type*} {l : List α} (hl : l.Nodup) (p : α → Bool) :
    (l.filter p).length ≤ 1 ↔ ∀ a ∈ l, ∀ b ∈ l, p a = true → p b = true → a = b := by
  have hnd := hl.filter p
  constructor
  · intro h a ha b hb hpa hpb
    have ha' : a ∈ l.filter p := List.mem_filter.mpr ⟨ha, hpa⟩
    have hb' : b ∈ l.filter p := List.mem_filter.mpr ⟨hb, hpb⟩
    obtain ⟨c, hc⟩ : ∃ c, l.filter p = [c] := by
      have hpos := List.length_pos_of_mem ha'
      exact List.length_eq_one_iff.mp (by omega)
    rw [hc, List.mem_singleton] at ha' hb'
    rw [ha', hb']
  · intro h
    cases hf : l.filter p with
    | nil => simp
    | cons a rest =>
      cases rest with
      | nil => simp
      | cons b rest =>
        have ha : a ∈ l.filter p := by simp [hf]
        have hb : b ∈ l.filter p := by simp [hf]
        rw [List.mem_filter] at ha hb
        rw [hf, List.nodup_cons] at hnd
        have hab := h a ha.1 b hb.1 ha.2 hb.2
        exact absurd (List.mem_cons.mpr (Or.inl hab)) hnd.1

/-- At most one row satisfies `p` exactly when all that do share a key. -/
theorem count_le_one_iff (T : Table K) (p : ρ → Bool) :
    (T.rows.filter p).length ≤ 1 ↔
      ∀ r ∈ T.rows, ∀ s ∈ T.rows, p r = true → p s = true → K.key r = K.key s := by
  rw [length_filter_le_one_iff T.rows_nodup]
  constructor
  · intro h r hr s hs hpr hps
    rw [h r hr s hs hpr hps]
  · intro h r hr s hs hpr hps
    exact T.eq_of_key hr hs (h r hr s hs hpr hps)

theorem next_not_mem (T : Table K) : T.next ∉ T.rows.map K.id := by
  intro h
  obtain ⟨r, hr, he⟩ := List.mem_map.mp h
  have := T.id_lt r hr
  omega

/-! ### Reading by the UNIQUE key -/

section Get

variable [DecidableEq κ]

/-- The row with key `k`. -/
def get (T : Table K) (k : κ) : Option ρ :=
  T.rows.find? fun r => decide (K.key r = k)

theorem get_eq_some_iff {T : Table K} {k : κ} {r : ρ} :
    T.get k = some r ↔ r ∈ T.rows ∧ K.key r = k := by
  constructor
  · intro h
    exact ⟨List.mem_of_find?_eq_some h, by simpa using List.find?_some h⟩
  · intro h
    obtain ⟨hr, hk⟩ := h
    cases hg : T.get k with
    | none =>
      have := List.find?_eq_none.mp hg r hr
      simp [hk] at this
    | some s =>
      have hs : s ∈ T.rows := List.mem_of_find?_eq_some hg
      have hsk : K.key s = k := by simpa using List.find?_some hg
      rw [T.eq_of_key hs hr (hsk.trans hk.symm)]

theorem get_eq_none_iff {T : Table K} {k : κ} :
    T.get k = none ↔ ∀ r ∈ T.rows, K.key r ≠ k := by
  simp [get, List.find?_eq_none]

theorem get_of_rows {T U : Table K} (h : T.rows = U.rows) (k : κ) : T.get k = U.get k := by
  unfold get
  rw [h]

theorem get_mem {T : Table K} {k : κ} {r : ρ} (h : T.get k = some r) : r ∈ T.rows :=
  (get_eq_some_iff.mp h).1

theorem get_key {T : Table K} {k : κ} {r : ρ} (h : T.get k = some r) : K.key r = k :=
  (get_eq_some_iff.mp h).2

theorem get_of_mem {T : Table K} {r : ρ} (h : r ∈ T.rows) : T.get (K.key r) = some r :=
  get_eq_some_iff.mpr ⟨h, rfl⟩

theorem get_id_lt {T : Table K} {k : κ} {r : ρ} (h : T.get k = some r) : K.id r < T.next :=
  T.id_lt r (get_mem h)

/-- Two keys whose rows share an id are one key. -/
theorem key_eq_of_id {T : Table K} {k l : κ} {r s : ρ} (hr : T.get k = some r)
    (hs : T.get l = some s) (h : K.id r = K.id s) : k = l := by
  have := T.eq_of_id (get_mem hr) (get_mem hs) h
  rw [← get_key hr, ← get_key hs, this]

end Get

/-! ### `UPDATE` that keeps id and key -/

/-- Update the rows chosen by `p`. -/
def updateRows (p : ρ → Bool) (f : RowUpdate K) (rows : List ρ) : List ρ :=
  rows.map fun r => if p r then f.apply r else r

theorem updateRows_id (p : ρ → Bool) (f : RowUpdate K) (rows : List ρ) :
    (updateRows p f rows).map K.id = rows.map K.id := by
  unfold updateRows
  rw [List.map_map]
  refine List.map_congr_left fun r _ => ?_
  show K.id (if p r then f.apply r else r) = K.id r
  split
  · exact f.id_apply r
  · rfl

theorem updateRows_key (p : ρ → Bool) (f : RowUpdate K) (rows : List ρ) :
    (updateRows p f rows).map K.key = rows.map K.key := by
  unfold updateRows
  rw [List.map_map]
  refine List.map_congr_left fun r _ => ?_
  show K.key (if p r then f.apply r else r) = K.key r
  split
  · exact f.key_apply r
  · rfl

/-- `UPDATE ... SET f WHERE p`, for an assignment that touches neither id nor key. -/
def modify (T : Table K) (p : ρ → Bool) (f : RowUpdate K) : Table K where
  rows := updateRows p f T.rows
  next := T.next
  id_lt := by
    have h : ∀ i ∈ (updateRows p f T.rows).map K.id, i < T.next := by
      rw [updateRows_id]
      intro i hi
      obtain ⟨r, hr, rfl⟩ := List.mem_map.mp hi
      exact T.id_lt r hr
    exact fun r hr => h _ (List.mem_map_of_mem hr)
  id_nodup := by
    rw [updateRows_id]
    exact T.id_nodup
  key_nodup := by
    rw [updateRows_key]
    exact T.key_nodup

section Modify

variable {T : Table K} {p : ρ → Bool} {f : RowUpdate K}

@[simp] theorem modify_next : (T.modify p f).next = T.next := rfl

theorem ids_modify : (T.modify p f).ids = T.ids := updateRows_id p f T.rows

theorem modify_rows : (T.modify p f).rows = T.rows.map fun r => if p r then f.apply r else r := rfl

theorem get_modify [DecidableEq κ] (k : κ) :
    (T.modify p f).get k = (T.get k).map fun r => if p r then f.apply r else r := by
  ext s
  simp only [get_eq_some_iff, modify_rows, List.mem_map, Option.map_eq_some_iff]
  have hkey : ∀ r, K.key (if p r then f.apply r else r) = K.key r := by
    intro r
    split
    · exact f.key_apply r
    · rfl
  constructor
  · intro h
    obtain ⟨⟨r, hr, rfl⟩, hk⟩ := h
    exact ⟨r, ⟨hr, (hkey r).symm.trans hk⟩, rfl⟩
  · intro h
    obtain ⟨r, ⟨hr, hk⟩, rfl⟩ := h
    exact ⟨⟨r, hr, rfl⟩, (hkey r).trans hk⟩

end Modify

/-! ### `INSERT ... ON DUPLICATE KEY UPDATE` -/

/-- Rolling back, or an `INSERT` that ends in an update, keeps the rows and moves the counter. -/
def bump (T : Table K) (n : ℕ) : Table K where
  rows := T.rows
  next := max T.next n
  id_lt := fun r hr => Nat.lt_of_lt_of_le (T.id_lt r hr) (Nat.le_max_left _ _)
  id_nodup := T.id_nodup
  key_nodup := T.key_nodup

@[simp] theorem bump_rows {T : Table K} {n : ℕ} : (T.bump n).rows = T.rows := rfl

@[simp] theorem bump_next {T : Table K} {n : ℕ} : (T.bump n).next = max T.next n := rfl

theorem bump_self (T : Table K) : T.bump T.next = T := ext_rows rfl (Nat.max_self _)

theorem bump_bump (T : Table K) (m n : ℕ) : (T.bump m).bump n = T.bump (max m n) :=
  ext_rows rfl (Nat.max_assoc _ _ _)

@[simp] theorem get_bump [DecidableEq κ] {T : Table K} {n : ℕ} (k : κ) : (T.bump n).get k = T.get k := rfl

section Upsert

variable [DecidableEq κ]

/-- Append a new row under the next id; the key must be free. -/
def insertNew (T : Table K) {k : κ} (mk : RowMaker K k) (h : T.get k = none) : Table K where
  rows := T.rows ++ [mk.make T.next]
  next := T.next + 1
  id_lt := by
    intro r hr
    rcases List.mem_append.mp hr with hr | hr
    · exact Nat.lt_succ_of_lt (T.id_lt r hr)
    · rw [List.mem_singleton.mp hr, mk.id_make]
      exact Nat.lt_succ_self _
  id_nodup := by
    rw [List.map_append, List.nodup_append']
    refine ⟨T.id_nodup, by simp, ?_⟩
    simp only [List.map_cons, List.map_nil, mk.id_make, List.disjoint_singleton]
    exact T.next_not_mem
  key_nodup := by
    rw [List.map_append, List.nodup_append']
    refine ⟨T.key_nodup, by simp, ?_⟩
    simp only [List.map_cons, List.map_nil, mk.key_make, List.disjoint_singleton]
    intro hk
    obtain ⟨r, hr, he⟩ := List.mem_map.mp hk
    exact get_eq_none_iff.mp h r hr he

/-- A new row keeps every id, and has one. -/
theorem mem_ids_insertNew {T : Table K} {k : κ} {mk : RowMaker K k} (h : T.get k = none) {i : ℕ}
    (hi : i ∈ T.ids) : i ∈ (T.insertNew mk h).ids := by
  obtain ⟨r, hr, rfl⟩ := mem_ids.mp hi
  exact mem_ids.mpr ⟨r, List.mem_append_left _ hr, rfl⟩

theorem next_mem_insertNew {T : Table K} {k : κ} {mk : RowMaker K k} (h : T.get k = none) :
    T.next ∈ (T.insertNew mk h).ids :=
  mem_ids.mpr ⟨mk.make T.next, List.mem_append_right _ (by simp), mk.id_make _⟩

/-- Update the row with key `k`, or append a new one under the next id.  The counter moves in
both cases. -/
def upsert (T : Table K) (k : κ) (mk : RowMaker K k) (upd : RowUpdate K) : Table K :=
  if h : T.get k = none then T.insertNew mk h
  else (T.modify (fun r => decide (K.key r = k)) upd).bump (T.next + 1)

variable {T : Table K} {k l : κ} {mk : RowMaker K k} {upd : RowUpdate K}

@[simp] theorem upsert_next : (T.upsert k mk upd).next = T.next + 1 := by
  unfold upsert
  split
  · rfl
  · simp

theorem upsert_rows_of_none (h : T.get k = none) :
    (T.upsert k mk upd).rows = T.rows ++ [mk.make T.next] := by
  unfold upsert
  rw [dif_pos h]
  rfl

theorem upsert_rows_of_some {r : ρ} (h : T.get k = some r) :
    (T.upsert k mk upd).rows = T.rows.map fun r => if K.key r = k then upd.apply r else r := by
  unfold upsert
  rw [dif_neg (by simp [h])]
  simp [modify_rows]

/-- What an update does not change of its row is unchanged in all rows. -/
theorem map_rows_upsert {δ : Type*} {g : ρ → δ} {r : ρ} (h : T.get k = some r)
    (hg : g (upd.apply r) = g r) : (T.upsert k mk upd).rows.map g = T.rows.map g := by
  rw [upsert_rows_of_some h, List.map_map]
  refine List.map_congr_left fun q hq => ?_
  show g (if K.key q = k then upd.apply q else q) = g q
  split
  · next hk =>
    rw [T.eq_of_key hq (get_mem h) (hk.trans (get_key h).symm)]
    exact hg
  · rfl

/-- The rows an `INSERT IGNORE` leaves are the old ones, and the new one if its key was free. -/
theorem rows_insertIgnore : (T.upsert k mk (.keep K)).rows =
    T.rows ++ if (T.get k).isNone then [mk.make T.next] else [] := by
  cases h : T.get k with
  | none => simp [upsert_rows_of_none h]
  | some r => simp [upsert_rows_of_some h, RowUpdate.keep]

theorem mem_upsert_of_none {r : ρ} (h : T.get k = none) (hr : r ∈ T.rows) :
    r ∈ (T.upsert k mk upd).rows := by
  rw [upsert_rows_of_none h]
  exact List.mem_append_left _ hr

/-- What holds of the old rows, of the update of the row under the key and of the new row holds of
every row after an upsert. -/
theorem forall_upsert {P : ρ → Prop} (h : ∀ r ∈ T.rows, P r)
    (hupd : ∀ r ∈ T.rows, K.key r = k → P (upd.apply r)) (hmk : ∀ n, P (mk.make n)) :
    ∀ r ∈ (T.upsert k mk upd).rows, P r := by
  intro r hr
  cases hk : T.get k with
  | none =>
    rw [upsert_rows_of_none hk, List.mem_append, List.mem_singleton] at hr
    rcases hr with hr | rfl
    · exact h r hr
    · exact hmk _
  | some s =>
    rw [upsert_rows_of_some hk] at hr
    obtain ⟨q, hq, rfl⟩ := List.mem_map.mp hr
    split
    · next hqk => exact hupd q hq hqk
    · exact h q hq

/-- A row after an upsert is an old row, an updated old row, or the new one. -/
theorem mem_upsert {r : ρ} (hr : r ∈ (T.upsert k mk upd).rows) :
    r ∈ T.rows ∨ (∃ s ∈ T.rows, upd.apply s = r) ∨ r = mk.make T.next := by
  cases h : T.get k with
  | none =>
    rw [upsert_rows_of_none h, List.mem_append, List.mem_singleton] at hr
    rcases hr with hr | hr
    · exact Or.inl hr
    · exact Or.inr (Or.inr hr)
  | some s =>
    rw [upsert_rows_of_some h] at hr
    obtain ⟨t, ht, rfl⟩ := List.mem_map.mp hr
    split
    · exact Or.inr (Or.inl ⟨t, ht, rfl⟩)
    · exact Or.inl ht

/-- An upsert keeps every id. -/
theorem mem_ids_upsert {i : ℕ} (hi : i ∈ T.ids) : i ∈ (T.upsert k mk upd).ids := by
  obtain ⟨r, hr, rfl⟩ := List.mem_map.mp hi
  cases h : T.get k with
  | none => exact List.mem_map_of_mem (mem_upsert_of_none h hr)
  | some s =>
    unfold ids
    rw [upsert_rows_of_some h, List.map_map]
    refine List.mem_map.mpr ⟨r, hr, ?_⟩
    show K.id (if K.key r = k then upd.apply r else r) = K.id r
    split
    · exact upd.id_apply r
    · rfl

theorem get_upsert_of_none (h : T.get k = none) :
    (T.upsert k mk upd).get k = some (mk.make T.next) := by
  rw [get_eq_some_iff, upsert_rows_of_none h]
  exact ⟨by simp, mk.key_make _⟩

theorem get_upsert_of_some {r : ρ} (h : T.get k = some r) :
    (T.upsert k mk upd).get k = some (upd.apply r) := by
  rw [get_eq_some_iff, upsert_rows_of_some h]
  have hk := get_key h
  exact ⟨List.mem_map.mpr ⟨r, get_mem h, by simp [hk]⟩, (upd.key_apply r).trans hk⟩

theorem get_upsert_ne (hne : l ≠ k) : (T.upsert k mk upd).get l = T.get l := by
  cases h : T.get k with
  | none =>
    ext r
    rw [get_eq_some_iff, get_eq_some_iff, upsert_rows_of_none h, List.mem_append,
      List.mem_singleton]
    constructor
    · intro hr
      obtain ⟨hr | rfl, hk⟩ := hr
      · exact ⟨hr, hk⟩
      · exact absurd ((mk.key_make _).symm.trans hk).symm hne
    · intro hr
      exact ⟨Or.inl hr.1, hr.2⟩
  | some s =>
    unfold upsert
    rw [dif_neg (by simp [h]), get_bump, get_modify]
    cases hl : T.get l with
    | none => rfl
    | some r =>
      have hr : K.key r ≠ k := fun hk => hne ((get_key hl).symm.trans hk)
      simp [hr]

/-- The row an upsert leaves under its key: the update of the old row, or a new row. -/
theorem get_upsert_self :
    (T.upsert k mk upd).get k = some ((T.get k).elim (mk.make T.next) upd.apply) := by
  cases h : T.get k with
  | none => simpa using get_upsert_of_none h
  | some r => simpa using get_upsert_of_some h

/-- A row after an upsert is an old row under another key, or the row the upsert left. -/
theorem mem_upsert_cases {r : ρ} (hr : r ∈ (T.upsert k mk upd).rows) :
    (r ∈ T.rows ∧ K.key r ≠ k) ∨ r = (T.get k).elim (mk.make T.next) upd.apply := by
  by_cases hk : K.key r = k
  · have hget := get_of_mem hr
    rw [hk, get_upsert_self] at hget
    exact Or.inr (Option.some.inj hget).symm
  · have hget := get_of_mem hr
    rw [get_upsert_ne hk] at hget
    exact Or.inl ⟨get_mem hget, hk⟩

end Upsert

/-! ### `UPDATE ... WHERE id = i` that may move the row to another key -/

/-- Apply `f` to the row with id `i`; refused when the result would repeat a key. -/
def rekey [DecidableEq κ] (T : Table K) (i : ℕ) (f : ρ → ρ) (hf : ∀ r, K.id (f r) = K.id r) :
    Option (Table K) :=
  if h : ((T.rows.map fun r => if K.id r = i then f r else r).map K.key).Nodup then
    some
      { rows := T.rows.map fun r => if K.id r = i then f r else r
        next := T.next
        id_lt := by
          intro r hr
          obtain ⟨s, hs, rfl⟩ := List.mem_map.mp hr
          have := T.id_lt s hs
          split
          · rw [hf s]; exact this
          · exact this
        id_nodup := by
          rw [List.map_map]
          convert T.id_nodup using 1
          refine List.map_congr_left fun r _ => ?_
          simp only [Function.comp]
          split
          · exact hf r
          · rfl
        key_nodup := h }
  else none

theorem rekey_eq_some_iff [DecidableEq κ] {T U : Table K} {i : ℕ} {f : ρ → ρ}
    {hf : ∀ r, K.id (f r) = K.id r} :
    T.rekey i f hf = some U ↔
      U.rows = (T.rows.map fun r => if K.id r = i then f r else r) ∧ U.next = T.next := by
  unfold rekey
  constructor
  · intro h
    split at h
    · cases h
      exact ⟨rfl, rfl⟩
    · cases h
  · intro h
    obtain ⟨hr, hn⟩ := h
    have hnd : ((T.rows.map fun r => if K.id r = i then f r else r).map K.key).Nodup := by
      rw [← hr]
      exact U.key_nodup
    rw [dif_pos hnd]
    exact congrArg some (ext_rows hr.symm hn.symm)

/-- The update goes through when the new key is free. -/
theorem rekey_isSome [DecidableEq κ] {T : Table K} {i : ℕ} {f : ρ → ρ}
    {hf : ∀ r, K.id (f r) = K.id r}
    (hfree : ∀ r ∈ T.rows, ∀ s ∈ T.rows, K.id r ≠ i → K.id s = i → K.key r ≠ K.key (f s)) :
    (T.rekey i f hf).isSome := by
  have hnd : ((T.rows.map fun r => if K.id r = i then f r else r).map K.key).Nodup := by
    rw [List.map_map]
    refine T.rows_nodup.map_on fun r hr s hs he => ?_
    dsimp only [Function.comp] at he
    by_cases hri : K.id r = i
    · by_cases hsi : K.id s = i
      · exact T.eq_of_id hr hs (hri.trans hsi.symm)
      · rw [if_pos hri, if_neg hsi] at he
        exact absurd he.symm (hfree s hs r hr hsi hri)
    · by_cases hsi : K.id s = i
      · rw [if_neg hri, if_pos hsi] at he
        exact absurd he (hfree r hr s hs hri hsi)
      · rw [if_neg hri, if_neg hsi] at he
        exact T.eq_of_key hr hs he
  unfold rekey
  rw [dif_pos hnd]
  rfl

/-- An update of an existing row goes through exactly if no other row has its new key. -/
theorem rekey_isSome_iff [DecidableEq κ] {T : Table K} {i : ℕ} {f : ρ → ρ}
    {hf : ∀ r, K.id (f r) = K.id r} {s : ρ} (hs : s ∈ T.rows) (hi : K.id s = i) :
    (T.rekey i f hf).isSome ↔ ∀ r ∈ T.rows, K.id r ≠ i → K.key r ≠ K.key (f s) := by
  constructor
  · intro h r hr hri he
    obtain ⟨U, hU⟩ := Option.isSome_iff_exists.mp h
    have hrows := (rekey_eq_some_iff.mp hU).1
    have hrU : r ∈ U.rows := by
      rw [hrows]
      exact List.mem_map.mpr ⟨r, hr, if_neg hri⟩
    have hsU : f s ∈ U.rows := by
      rw [hrows]
      exact List.mem_map.mpr ⟨s, hs, if_pos hi⟩
    have hid := congrArg K.id (U.eq_of_key hrU hsU he)
    rw [hf, hi] at hid
    exact hri hid
  · intro h
    refine rekey_isSome fun r hr s' hs' hri hsi => ?_
    rw [T.eq_of_id hs' hs (hsi.trans hi.symm)]
    exact h r hr hri

theorem ids_rekey [DecidableEq κ] {T U : Table K} {i : ℕ} {f : ρ → ρ}
    {hf : ∀ r, K.id (f r) = K.id r} (h : T.rekey i f hf = some U) :
    U.ids = T.ids := by
  unfold ids
  rw [(rekey_eq_some_iff.mp h).1, List.map_map]
  refine List.map_congr_left fun r _ => ?_
  show K.id (if K.id r = i then f r else r) = K.id r
  split
  · exact hf r
  · rfl

/-! ### `DELETE` -/

/-- `DELETE ... WHERE p`. -/
def deleteWhere (T : Table K) (p : ρ → Bool) : Table K where
  rows := T.rows.filter fun r => !p r
  next := T.next
  id_lt := fun r hr => T.id_lt r (List.mem_filter.mp hr).1
  id_nodup := T.id_nodup.sublist (List.filter_sublist.map _)
  key_nodup := T.key_nodup.sublist (List.filter_sublist.map _)

@[simp] theorem deleteWhere_next {T : Table K} {p : ρ → Bool} :
    (T.deleteWhere p).next = T.next := rfl

theorem deleteWhere_rows {T : Table K} {p : ρ → Bool} :
    (T.deleteWhere p).rows = T.rows.filter fun r => !p r := rfl

theorem mem_deleteWhere {T : Table K} {p : ρ → Bool} {r : ρ} :
    r ∈ (T.deleteWhere p).rows ↔ r ∈ T.rows ∧ p r = false := by
  simp [deleteWhere_rows]

theorem get_deleteWhere [DecidableEq κ] {T : Table K} {p : ρ → Bool} (k : κ) :
    (T.deleteWhere p).get k = (T.get k).filter fun r => !p r := by
  ext r
  simp only [get_eq_some_iff, mem_deleteWhere, Option.filter_eq_some_iff, Bool.not_eq_true']
  tauto

end Table

end Relational
