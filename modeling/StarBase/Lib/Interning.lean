import Mathlib.Logic.Function.Basic
import StarBase.Lib.Run
import StarBase.Lib.Table

/-!
# Names that concurrent transactions turn into ids

Several workers, each in one transaction after the other, look names up in one table.  A name that
is not there is inserted, and the id of its row read back; each worker remembers the answers in a
cache of its own, which a rollback does not touch.  A row that an open transaction inserted is
seen by that transaction only, and an insertion of the same name by another one waits for it.

* `Ask` — how a lookup that the cache cannot answer is answered;
* `Shared` — the table, the rows of the open transactions, and what every worker holds;
* `Shared.look`, `Shared.step` — one lookup, and one event of a run;
* `Converged` — every id an open transaction was given is the id of a row it sees, and every name
  that committed transactions were given ids for has exactly one row;
* `Inv.step`, `Inv.converged` — **PROVED**: the invariant gives that, and an event keeps it that looks
  up no key whose row a rollback of the worker's own took back;
* `noLost_of_converged` — **PROVED**: an event that does look such a key up does not.
-/

namespace Interning

open Relational Run

variable {ρ κ ν α W : Type*} {K : Keying ρ κ}

/-! ### Lookups -/

/-- How a lookup that the cache cannot answer is answered: by an id given beforehand, by the listed
row of a name, or by the row of a name that is inserted where it is missing.  The last comes with
the row's key and the name it is read back by, which differ where the column cuts the name off. -/
inductive Ask (K : Keying ρ κ)
  | given (found : Option ℕ)
  | listed (i : ℕ) (name : κ)
  | make (k : κ) (row : RowMaker K k) (name : κ)

/-- The name whose row an answered lookup refers to. -/
def Ask.name? : Ask K → Option κ
  | given _ => none
  | listed _ name => some name
  | make _ _ name => some name

/-- The answer a single transaction gets from a table, and the table it leaves. -/
def Ask.answer [DecidableEq κ] (T : Table K) : Ask K → Option ℕ × Table K
  | given found => (found, T)
  | listed i _ => (some i, T)
  | make k row name => (((T.upsert k row (.keep K)).get name).map K.id, T.upsert k row (.keep K))

/-- What a worker holds. -/
structure Seat (κ ν : Type*) where
  /-- The answers it remembers, across transactions. -/
  cache : List (ν × Option ℕ) := []
  /-- The ids its open transaction was given, and the names they were given for. -/
  held : List ℕ := []
  asked : List κ := []
  /-- The keys that its open transaction inserted the row of. -/
  born : List ν := []
  /-- The keys whose row was taken back by a rollback of its own. -/
  lost : List ν := []

structure Shared (K : Keying ρ κ) (W ν : Type*) where
  table : Table K
  /-- The ids of the rows that open transactions inserted, each with its worker. -/
  pending : List (ℕ × W)
  /-- The names that committed transactions were given ids for. -/
  recorded : List κ
  seat : W → Seat κ ν

namespace Shared

/-- A table that no transaction works on. -/
def quiet (T : Table K) : Shared K W ν := ⟨T, [], [], fun _ => {}⟩

/-- There is a row with this id that the worker's transaction sees. -/
def Sees (s : Shared K W ν) (w : W) (i : ℕ) : Prop :=
  i ∈ s.table.ids ∧ ∀ p ∈ s.pending, p.1 = i → p.2 = w

/-- There is a committed row with this id. -/
def Settled (s : Shared K W ν) (i : ℕ) : Prop :=
  i ∈ s.table.ids ∧ ∀ p ∈ s.pending, p.1 ≠ i

/-- There is no row with this id and there will be none. -/
def Gone (s : Shared K W ν) (i : ℕ) : Prop := i ∉ s.table.ids ∧ i < s.table.next

/-- The worker sees the row with this id, and it is that of the name of every lookup under `v`. -/
def Names (key : α → ν) (ask : α → Ask K) (s : Shared K W ν) (w : W) (v : ν) (i : ℕ) : Prop :=
  s.Sees w i ∧ ∃ r ∈ s.table.rows, K.id r = i ∧
    ∀ a, key a = v → ∀ name, (ask a).name? = some name → K.key r = name

theorem Settled.sees {s : Shared K W ν} {i : ℕ} (h : s.Settled i) (w : W) : s.Sees w i :=
  ⟨h.1, fun p hp hi => absurd hi (h.2 p hp)⟩

variable [DecidableEq W]

instance (s : Shared K W ν) (w : W) (i : ℕ) : Decidable (s.Sees w i) :=
  inferInstanceAs (Decidable (_ ∧ _))

/-- The table as the worker's transaction reads it. -/
def seen (s : Shared K W ν) (w : W) : Table K := s.table.deleteWhere fun r => ¬ s.Sees w (K.id r)

def setSeat (s : Shared K W ν) (w : W) (q : Seat κ ν) : Shared K W ν :=
  { s with seat := Function.update s.seat w q }

section Lookup

variable [DecidableEq κ]

/-- Another transaction's row has the key, so that an insertion under it waits. -/
def locked (s : Shared K W ν) (w : W) (k : κ) : Bool :=
  (s.table.get k).any fun r => ¬ s.Sees w (K.id r)

/-- `INSERT IGNORE`. -/
def insertIgnore (s : Shared K W ν) (w : W) {k : κ} (row : RowMaker K k) : Shared K W ν :=
  { s with
    table := s.table.upsert k row (.keep K)
    pending := if (s.table.get k).isNone then (s.table.next, w) :: s.pending else s.pending }

/-- `SELECT id ... WHERE name = ... LIMIT 1`. -/
def readBack (s : Shared K W ν) (w : W) (name : κ) : Option ℕ :=
  ((s.table.get name).filter fun r => s.Sees w (K.id r)).map K.id

/-- The answer to a lookup that is not cached; none while it waits.  The row that was found or
inserted stays until the transaction ends, so the two statements are one step. -/
def fetch (s : Shared K W ν) (w : W) : Ask K → Option (Option ℕ × Shared K W ν)
  | .given found => some (found, s)
  | .listed i _ => some (some i, s)
  | .make k row name =>
    if s.locked w k then none
    else some ((s.insertIgnore w row).readBack w name, s.insertIgnore w row)

variable [BEq ν] (key : α → ν) (ask : α → Ask K)

/-- Remember an answer under a key. -/
def remember (s : Shared K W ν) (w : W) (v : ν) (found : Option ℕ) : Shared K W ν :=
  s.setSeat w
    { s.seat w with
      cache := (v, found) :: (s.seat w).cache
      born := if found.any fun i => (i, w) ∈ s.pending then v :: (s.seat w).born
        else (s.seat w).born }

/-- Hand an answer to the transaction that asked. -/
def hold (s : Shared K W ν) (w : W) (name : Option κ) : Option ℕ → Shared K W ν
  | none => s
  | some i => s.setSeat w
    { s.seat w with
      held := i :: (s.seat w).held
      asked := name.toList ++ (s.seat w).asked }

/-- One lookup: the cache first, then the ask. -/
def look (s : Shared K W ν) (w : W) (a : α) : Option (Option ℕ × Shared K W ν) :=
  match (s.seat w).cache.lookup (key a) with
  | some found => some (found, s)
  | none => (s.fetch w (ask a)).map fun r => (r.1, r.2.remember w (key a) r.1)

end Lookup

/-! ### Transactions -/

/-- `COMMIT`, and the start of the next transaction. -/
def commit (s : Shared K W ν) (w : W) : Shared K W ν :=
  { s with
    pending := s.pending.filter fun p => p.2 ≠ w
    recorded := (s.seat w).asked ++ s.recorded
    seat := Function.update s.seat w
      { cache := (s.seat w).cache
        lost := (s.seat w).lost } }

/-- `ROLLBACK`, and the start of the next transaction: the rows go, the cache stays. -/
def rollback (s : Shared K W ν) (w : W) : Shared K W ν :=
  { s with
    table := s.table.deleteWhere fun r => (K.id r, w) ∈ s.pending
    pending := s.pending.filter fun p => p.2 ≠ w
    seat := Function.update s.seat w
      { cache := (s.seat w).cache
        lost := (s.seat w).born ++ (s.seat w).lost } }

end Shared

/-- What a worker does next.  An `attempt` is a lookup that fails between its insertion and the
reading of the id. -/
inductive Event (W α : Type*)
  | lookup (w : W) (a : α)
  | attempt (w : W) (a : α)
  | commit (w : W)
  | rollback (w : W)

section Step

variable [DecidableEq W] [DecidableEq κ] [BEq ν] (key : α → ν) (ask : α → Ask K)

def Shared.step (s : Shared K W ν) : Event W α → Shared K W ν
  | .lookup w a =>
    match s.look key ask w a with
    | none => s
    | some (found, t) => t.hold w (ask a).name? found
  | .attempt w a =>
    match (s.seat w).cache.lookup (key a), s.fetch w (ask a) with
    | none, some (_, t) => t
    | _, _ => s
  | .commit w => s.commit w
  | .rollback w => s.rollback w

/-- Every id an open transaction was given is the id of a row it sees, and every name recorded has
exactly one row. -/
structure Converged (s : Shared K W ν) : Prop where
  held : ∀ w, ∀ i ∈ (s.seat w).held, s.Sees w i
  recorded : ∀ name ∈ s.recorded, ∃! r, r ∈ s.table.rows ∧ K.key r = name

/-- The step looks up no key whose row a rollback took back from the worker's cache. -/
def NoLost (s : Shared K W ν) : Event W α → Prop
  | .lookup w a => key a ∉ (s.seat w).lost
  | _ => True

end Step

/-! ### What an insertion keeps -/

section Insert

variable [DecidableEq κ] {s : Shared K W ν} {w : W} {k : κ} {row : RowMaker K k}

theorem mem_rows_insertIgnore {r : ρ} (hr : r ∈ s.table.rows) :
    r ∈ (s.insertIgnore w row).table.rows := by
  show r ∈ (s.table.upsert k row (.keep K)).rows
  rw [Table.rows_insertIgnore]
  exact List.mem_append_left _ hr

theorem mem_ids_insertIgnore {i : ℕ} (hi : i ∈ s.table.ids) :
    i ∈ (s.insertIgnore w row).table.ids := Table.mem_ids_upsert hi

/-- The rows after an insertion are the old ones and, where the key was free, a new one of the
next id that the worker's transaction owns. -/
theorem mem_pending_insertIgnore {p : ℕ × W} (hp : p ∈ (s.insertIgnore w row).pending) :
    p ∈ s.pending ∨ p = (s.table.next, w) := by
  simp only [Shared.insertIgnore] at hp
  split at hp
  · exact (List.mem_cons.mp hp).symm
  · exact Or.inl hp

theorem pending_insertIgnore_of_mem {p : ℕ × W} (hp : p ∈ s.pending) :
    p ∈ (s.insertIgnore w row).pending := by
  simp only [Shared.insertIgnore]
  split
  · exact List.mem_cons_of_mem _ hp
  · exact hp

theorem sees_insertIgnore {v : W} {i : ℕ} (h : s.Sees v i) :
    (s.insertIgnore w row).Sees v i := by
  refine ⟨mem_ids_insertIgnore h.1, fun p hp hi => ?_⟩
  rcases mem_pending_insertIgnore hp with hold | rfl
  · exact h.2 p hold hi
  · have := Table.lt_next_of_mem_ids h.1
    simp only at hi
    omega

theorem settled_insertIgnore {i : ℕ} (h : s.Settled i) : (s.insertIgnore w row).Settled i := by
  refine ⟨mem_ids_insertIgnore h.1, fun p hp => ?_⟩
  rcases mem_pending_insertIgnore hp with hold | rfl
  · exact h.2 p hold
  · have := Table.lt_next_of_mem_ids h.1
    show s.table.next ≠ i
    omega

theorem gone_insertIgnore {i : ℕ} (h : s.Gone i) : (s.insertIgnore w row).Gone i := by
  constructor
  · intro hi
    obtain ⟨r, hr, rfl⟩ := Table.mem_ids.mp hi
    have hr' : r ∈ (s.table.upsert k row (.keep K)).rows := hr
    rw [Table.rows_insertIgnore, List.mem_append] at hr'
    rcases hr' with hold | hnew
    · exact h.1 (Table.id_mem_ids hold)
    · split at hnew
      · rw [List.mem_singleton.mp hnew, row.id_make] at h
        exact absurd h.2 (Nat.lt_irrefl _)
      · simp at hnew
  · show i < (s.table.upsert k row (.keep K)).next
    rw [Table.upsert_next]
    exact Nat.lt_succ_of_lt h.2

theorem names_insertIgnore {key : α → ν} {ask : α → Ask K} {v : W} {x : ν} {i : ℕ} (h : s.Names key ask v x i) :
    (s.insertIgnore w row).Names key ask v x i := by
  obtain ⟨hsees, r, hr, hrest⟩ := h
  exact ⟨sees_insertIgnore hsees, r, mem_rows_insertIgnore hr, hrest⟩

end Insert

/-! ### What the end of a transaction keeps -/

section Finish

variable {s : Shared K W ν} {w : W}

theorem not_pending_of_ne {v : W} {i : ℕ} (h : s.Sees v i) (hv : v ≠ w) : (i, w) ∉ s.pending :=
  fun hp => hv (h.2 _ hp rfl).symm

variable [DecidableEq W]

theorem mem_pending_finish {p : ℕ × W} :
    p ∈ s.pending.filter (fun p => p.2 ≠ w) ↔ p ∈ s.pending ∧ p.2 ≠ w := by
  simp [List.mem_filter]

theorem sees_commit {v : W} {i : ℕ} (h : s.Sees v i) : (s.commit w).Sees v i :=
  ⟨h.1, fun p hp => h.2 p (List.mem_filter.mp hp).1⟩

/-- What a transaction sees is there for all once it commits. -/
theorem settled_commit {i : ℕ} (h : s.Sees w i) : (s.commit w).Settled i := by
  refine ⟨h.1, fun p hp hi => ?_⟩
  obtain ⟨hp, hw⟩ := mem_pending_finish.mp hp
  exact hw (h.2 p hp hi)

theorem mem_rows_rollback {r : ρ} :
    r ∈ (s.rollback w).table.rows ↔ r ∈ s.table.rows ∧ (K.id r, w) ∉ s.pending := by
  simp [Shared.rollback, Table.mem_deleteWhere]

theorem mem_ids_rollback {i : ℕ} :
    i ∈ (s.rollback w).table.ids ↔ i ∈ s.table.ids ∧ (i, w) ∉ s.pending := by
  simp only [Table.mem_ids, mem_rows_rollback]
  constructor
  · rintro ⟨r, ⟨hr, hp⟩, rfl⟩
    exact ⟨⟨r, hr, rfl⟩, hp⟩
  · rintro ⟨⟨r, hr, rfl⟩, hp⟩
    exact ⟨r, ⟨hr, hp⟩, rfl⟩

/-- A rollback takes no row from what another transaction sees, nor any that is committed. -/
theorem sees_rollback {v : W} {i : ℕ} (h : s.Sees v i) (hp : (i, w) ∉ s.pending) :
    (s.rollback w).Sees v i :=
  ⟨mem_ids_rollback.mpr ⟨h.1, hp⟩, fun p hp => h.2 p (mem_pending_finish.mp hp).1⟩

theorem settled_rollback {i : ℕ} (h : s.Settled i) : (s.rollback w).Settled i :=
  ⟨mem_ids_rollback.mpr ⟨h.1, fun hp => h.2 _ hp rfl⟩,
    fun p hp => h.2 p (mem_pending_finish.mp hp).1⟩

theorem gone_rollback {i : ℕ} (h : s.Gone i) : (s.rollback w).Gone i :=
  ⟨fun hi => h.1 (mem_ids_rollback.mp hi).1, h.2⟩

theorem names_rollback {key : α → ν} {ask : α → Ask K} {v : W} {x : ν} {i : ℕ} (h : s.Names key ask v x i)
    (hp : (i, w) ∉ s.pending) : (s.rollback w).Names key ask v x i := by
  obtain ⟨hsees, r, hr, rfl, hkey⟩ := h
  exact ⟨sees_rollback hsees hp, r, mem_rows_rollback.mpr ⟨hr, hp⟩, rfl, hkey⟩

end Finish

/-! ### What a worker reads -/

section Seen

variable [DecidableEq W] {s : Shared K W ν} {w : W}

theorem mem_ids_seen {i : ℕ} : i ∈ (s.seen w).ids ↔ s.Sees w i := by
  simp only [Table.mem_ids, Shared.seen, Table.mem_deleteWhere]
  constructor
  · rintro ⟨r, ⟨-, hsees⟩, rfl⟩
    simpa using hsees
  · intro h
    obtain ⟨r, hr, rfl⟩ := Table.mem_ids.mp h.1
    exact ⟨r, ⟨hr, by simpa using h⟩, rfl⟩

variable [DecidableEq κ]

theorem readBack_eq {name : κ} : s.readBack w name = ((s.seen w).get name).map K.id := by
  simp [Shared.readBack, Shared.seen, Table.get_deleteWhere]

/-- A worker whose insertion does not wait reads what an insertion into the table it read gives. -/
theorem seen_insertIgnore (h : ∀ p ∈ s.pending, p.1 ∈ s.table.ids) {k : κ} {row : RowMaker K k}
    (hl : s.locked w k = false) :
    (s.insertIgnore w row).seen w = (s.seen w).upsert k row (.keep K) := by
  have hget : ((s.seen w).get k).isNone = (s.table.get k).isNone := by
    rw [Shared.seen, Table.get_deleteWhere]
    cases hk : s.table.get k with
    | none => rfl
    | some r =>
      have hsees : s.Sees w (K.id r) := by simpa [Shared.locked, hk] using hl
      simp [hsees]
  have hrows : ∀ r ∈ s.table.rows,
      ((s.insertIgnore w row).Sees w (K.id r) ↔ s.Sees w (K.id r)) := by
    intro r hr
    refine ⟨fun hs => ⟨Table.id_mem_ids hr, fun p hp => hs.2 p (pending_insertIgnore_of_mem hp)⟩,
      sees_insertIgnore⟩
  apply Table.ext_rows
  · rw [Table.rows_insertIgnore, hget]
    show (s.table.upsert k row (.keep K)).rows.filter _ = s.table.rows.filter _ ++ _
    rw [Table.rows_insertIgnore, List.filter_append]
    congr 1
    · exact List.filter_congr fun r hr => by simp [hrows r hr]
    · cases hk : s.table.get k with
      | some r => rfl
      | none =>
        have hnew : (s.insertIgnore w row).Sees w s.table.next := by
          constructor
          · exact Table.mem_ids.mpr ⟨row.make s.table.next, by
              simp [Shared.insertIgnore, Table.rows_insertIgnore, hk], row.id_make _⟩
          · intro p hp hpn
            rcases mem_pending_insertIgnore hp with hold | rfl
            · have := Table.lt_next_of_mem_ids (h p hold)
              omega
            · rfl
        have hnext : (s.seen w).next = s.table.next := rfl
        simp [row.id_make, hnew, hnext]
  · simp [Shared.seen, Shared.insertIgnore]

theorem seat_of_fetch {q : Ask K} {found : Option ℕ} {t : Shared K W ν}
    (hf : s.fetch w q = some (found, t)) : t.seat = s.seat := by
  cases q with
  | given g =>
    obtain ⟨-, rfl⟩ : g = found ∧ s = t := by simpa [Shared.fetch] using hf
    rfl
  | listed i name =>
    obtain ⟨-, rfl⟩ : some i = found ∧ s = t := by simpa [Shared.fetch] using hf
    rfl
  | make k row name =>
    simp only [Shared.fetch] at hf
    split at hf
    · cases hf
    · obtain ⟨-, rfl⟩ : _ ∧ s.insertIgnore w row = t := by simpa using hf
      rfl

/-- A lookup that does not wait gets the answer it would get from the table its transaction reads,
were there no other. -/
theorem answer_of_fetch (h : ∀ p ∈ s.pending, p.1 ∈ s.table.ids) {q : Ask K} {found : Option ℕ}
    {t : Shared K W ν} (hf : s.fetch w q = some (found, t)) :
    q.answer (s.seen w) = (found, t.seen w) := by
  cases q with
  | given g =>
    obtain ⟨rfl, rfl⟩ : g = found ∧ s = t := by simpa [Shared.fetch] using hf
    rfl
  | listed i name =>
    obtain ⟨rfl, rfl⟩ : some i = found ∧ s = t := by simpa [Shared.fetch] using hf
    rfl
  | make k row name =>
    simp only [Shared.fetch] at hf
    split at hf
    · cases hf
    next hl =>
    obtain ⟨rfl, rfl⟩ : (s.insertIgnore w row).readBack w name = found ∧
        s.insertIgnore w row = t := by simpa using hf
    rw [readBack_eq, seen_insertIgnore h (by simpa using hl)]
    rfl

/-- A lookup gets its answer from the cache, or else from the table its transaction reads, and
then remembers it. -/
theorem answer_of_look [BEq ν] {key : α → ν} {ask : α → Ask K} {a : α}
    (h : ∀ p ∈ s.pending, p.1 ∈ s.table.ids) {found : Option ℕ} {t : Shared K W ν}
    (hl : s.look key ask w a = some (found, t)) :
    match (s.seat w).cache.lookup (key a) with
    | some f => found = f ∧ t = s
    | none => (ask a).answer (s.seen w) = (found, t.seen w) ∧
        (t.seat w).cache = (key a, found) :: (s.seat w).cache := by
  unfold Shared.look at hl
  split
  · next f hc =>
    rw [hc] at hl
    obtain ⟨rfl, rfl⟩ : f = found ∧ s = t := by simpa using hl
    exact ⟨rfl, rfl⟩
  · next hc =>
    rw [hc] at hl
    obtain ⟨⟨g, u⟩, hf, hr⟩ := Option.map_eq_some_iff.mp hl
    obtain ⟨rfl, rfl⟩ : g = found ∧ u.remember w (key a) g = t := by simpa using hr
    have hseat : u.seat = s.seat := seat_of_fetch hf
    have hanswer : (ask a).answer (s.seen w) = (g, u.seen w) := answer_of_fetch h hf
    exact ⟨hanswer, by simp [Shared.remember, Shared.setSeat, hseat]⟩

end Seen

/-! ### The invariant -/

section Invariant

variable [BEq ν] (key : α → ν) (ask : α → Ask K)

/-- What a worker's seat says of the table. -/
structure Tells (s : Shared K W ν) (w : W) (q : Seat κ ν) : Prop where
  cached : ∀ v i, q.cache.lookup v = some (some i) → v ∉ q.lost →
    s.Names key ask w v i ∧ ((i, w) ∈ s.pending → v ∈ q.born)
  born : ∀ v ∈ q.born, ∃ i, q.cache.lookup v = some (some i) ∧ (i, w) ∈ s.pending
  lost : ∀ v ∈ q.lost, ∃ i, q.cache.lookup v = some (some i) ∧ s.Gone i
  held : ∀ i ∈ q.held, s.Sees w i
  asked : ∀ name ∈ q.asked, ∃ r ∈ s.table.rows, K.key r = name ∧ s.Sees w (K.id r)

structure Inv (s : Shared K W ν) : Prop where
  pending : ∀ p ∈ s.pending, p.1 ∈ s.table.ids
  owner : ∀ p ∈ s.pending, ∀ q ∈ s.pending, p.1 = q.1 → p.2 = q.2
  given : ∀ a i, ask a = .given (some i) → s.Settled i
  listed : ∀ a i name, ask a = .listed i name →
    s.Settled i ∧ ∃ r ∈ s.table.rows, K.id r = i ∧ K.key r = name
  seats : ∀ w, Tells key ask s w (s.seat w)
  recorded : ∀ name ∈ s.recorded, ∃ r ∈ s.table.rows, K.key r = name ∧ s.Settled (K.id r)

variable {key ask} {s t : Shared K W ν}

/-- A table that no transaction works on meets the invariant when all listed rows are there. -/
theorem inv_quiet {T : Table K} (hgiven : ∀ a i, ask a = .given (some i) → i ∈ T.ids)
    (hlisted : ∀ a i name, ask a = .listed i name →
      ∃ r ∈ T.rows, K.id r = i ∧ K.key r = name) :
    Inv key ask (Shared.quiet T : Shared K W ν) where
  pending := by simp [Shared.quiet]
  owner := by simp [Shared.quiet]
  given a i h := ⟨hgiven a i h, by simp [Shared.quiet]⟩
  listed a i name h := by
    obtain ⟨r, hr, hi, hk⟩ := hlisted a i name h
    exact ⟨⟨Table.mem_ids.mpr ⟨r, hr, hi⟩, by simp [Shared.quiet]⟩, r, hr, hi, hk⟩
  seats _ := ⟨by simp [Shared.quiet], by simp [Shared.quiet], by simp [Shared.quiet],
    by simp [Shared.quiet], by simp [Shared.quiet]⟩
  recorded := by simp [Shared.quiet]

theorem Inv.converged (h : Inv key ask s) : Converged s where
  held w := (h.seats w).held
  recorded name hn := by
    obtain ⟨r, hr, hk, -⟩ := h.recorded name hn
    exact ⟨r, ⟨hr, hk⟩, fun q hq => s.table.eq_of_key hq.1 hr (hq.2.trans hk.symm)⟩

/-! ### Insertion keeps it -/

section Insert

variable [DecidableEq κ] {w : W} {k : κ} {row : RowMaker K k}

theorem Tells.insertIgnore {u : W} {q : Seat κ ν} (h : Tells key ask s u q) :
    Tells key ask (s.insertIgnore w row) u q where
  cached v i hc hv := by
    obtain ⟨hnames, hborn⟩ := h.cached v i hc hv
    refine ⟨names_insertIgnore hnames, fun hp => hborn ?_⟩
    rcases mem_pending_insertIgnore hp with hold | hnew
    · exact hold
    · have := Table.lt_next_of_mem_ids hnames.1.1
      have : i = s.table.next := congrArg Prod.fst hnew
      omega
  born v hv := by
    obtain ⟨i, hc, hp⟩ := h.born v hv
    exact ⟨i, hc, pending_insertIgnore_of_mem hp⟩
  lost v hv := by
    obtain ⟨i, hc, hgone⟩ := h.lost v hv
    exact ⟨i, hc, gone_insertIgnore hgone⟩
  held i hi := sees_insertIgnore (h.held i hi)
  asked name hn := by
    obtain ⟨r, hr, hk, hsees⟩ := h.asked name hn
    exact ⟨r, mem_rows_insertIgnore hr, hk, sees_insertIgnore hsees⟩

theorem Inv.insertIgnore (h : Inv key ask s) : Inv key ask (s.insertIgnore w row) where
  pending p hp := by
    by_cases hold : p ∈ s.pending
    · exact mem_ids_insertIgnore (h.pending p hold)
    · cases hk : s.table.get k with
      | some r =>
        simp only [Shared.insertIgnore, hk] at hp
        exact absurd hp hold
      | none =>
        obtain rfl : p = (s.table.next, w) := (mem_pending_insertIgnore hp).resolve_left hold
        refine Table.mem_ids.mpr ⟨row.make s.table.next, ?_, row.id_make _⟩
        show _ ∈ (s.table.upsert k row (.keep K)).rows
        simp [Table.rows_insertIgnore, hk]
  owner p hp q hq hpq := by
    have hlt : ∀ x ∈ s.pending, x.1 < s.table.next := fun x hx =>
      Table.lt_next_of_mem_ids (h.pending x hx)
    rcases mem_pending_insertIgnore hp with hp | rfl <;>
      rcases mem_pending_insertIgnore hq with hq | rfl
    · exact h.owner p hp q hq hpq
    · have := hlt p hp
      simp only at hpq
      omega
    · have := hlt q hq
      simp only at hpq
      omega
    · rfl
  given a i ha := settled_insertIgnore (h.given a i ha)
  listed a i name ha := by
    obtain ⟨hset, r, hr, hrest⟩ := h.listed a i name ha
    exact ⟨settled_insertIgnore hset, r, mem_rows_insertIgnore hr, hrest⟩
  seats v := (h.seats v).insertIgnore
  recorded name hn := by
    obtain ⟨r, hr, hk, hset⟩ := h.recorded name hn
    exact ⟨r, mem_rows_insertIgnore hr, hk, settled_insertIgnore hset⟩

end Insert

/-! ### A lookup keeps it -/

section Look

variable [DecidableEq W]

/-- Only the worker's own seat has to be looked at after a change to it. -/
theorem Inv.setSeat {w : W} (h : Inv key ask s) {q : Seat κ ν} (hq : Tells key ask s w q) :
    Inv key ask (s.setSeat w q) where
  pending := h.pending
  owner := h.owner
  given := h.given
  listed := h.listed
  seats := by
    have hcongr : ∀ v x, Tells key ask s v x → Tells key ask (s.setSeat w q) v x :=
      fun v x hx => ⟨hx.cached, hx.born, hx.lost, hx.held, hx.asked⟩
    exact (Function.forall_update_iff s.seat fun v x => Tells key ask (s.setSeat w q) v x).mpr
      ⟨hcongr w q hq, fun v _ => hcongr v _ (h.seats v)⟩
  recorded := h.recorded

variable {w : W} {a : α} {found : Option ℕ}

/-- An answer that may be remembered: the id of a row of the name looked up. -/
def Sound (key : α → ν) (ask : α → Ask K) (s : Shared K W ν) (w : W) (a : α)
    (found : Option ℕ) : Prop :=
  ∀ i, found = some i → s.Names key ask w (key a) i

theorem Inv.remember [LawfulBEq ν] (h : Inv key ask s) (hnone : (s.seat w).cache.lookup (key a) = none)
    (hf : Sound key ask s w a found) : Inv key ask (s.remember w (key a) found) := by
  have hw := h.seats w
  -- a key that was lost or born has an answer in the cache, so it is not the new one
  have hold : ∀ v i, (s.seat w).cache.lookup v = some (some i) →
      ((key a, found) :: (s.seat w).cache).lookup v = some (some i) := by
    intro v i hc
    have hne : v ≠ key a := by
      rintro rfl
      simp [hnone] at hc
    rw [List.lookup_cons, beq_eq_false_iff_ne.mpr hne]
    exact hc
  refine h.setSeat ⟨fun v i hc hv => ?_, fun v hv => ?_, fun v hv => ?_, hw.held, hw.asked⟩
  · by_cases hv' : v = key a
    · subst hv'
      obtain rfl : found = some i := by simpa using hc
      exact ⟨hf i rfl, fun hp => by simp [hp]⟩
    · rw [List.lookup_cons, beq_eq_false_iff_ne.mpr hv'] at hc
      obtain ⟨hnames, hborn⟩ := hw.cached v i hc hv
      refine ⟨hnames, fun hp => ?_⟩
      show v ∈ ite _ _ _
      split
      · exact List.mem_cons_of_mem _ (hborn hp)
      · exact hborn hp
  · have hv' : v ∈ if (found.any fun i => (i, w) ∈ s.pending) = true
        then key a :: (s.seat w).born else (s.seat w).born := hv
    split at hv'
    · next hb =>
      obtain ⟨i, rfl, hp⟩ := (Option.any_eq_true _ _).mp hb
      rcases List.mem_cons.mp hv' with rfl | hmem
      · exact ⟨i, by simp, by simpa using hp⟩
      · obtain ⟨j, hc, hj⟩ := hw.born v hmem
        exact ⟨j, hold v j hc, hj⟩
    · obtain ⟨j, hc, hj⟩ := hw.born v hv'
      exact ⟨j, hold v j hc, hj⟩
  · obtain ⟨j, hc, hj⟩ := hw.lost v hv
    exact ⟨j, hold v j hc, hj⟩

theorem Inv.hold (h : Inv key ask s) (hf : Sound key ask s w a found) :
    Inv key ask (s.hold w (ask a).name? found) := by
  cases found with
  | none => exact h
  | some i =>
    have hw := h.seats w
    obtain ⟨hsees, r, hr, hid, hkey⟩ := hf i rfl
    refine h.setSeat ⟨hw.cached, hw.born, hw.lost, fun j hj => ?_, fun name hn => ?_⟩
    · rcases List.mem_cons.mp hj with rfl | hj
      · exact hsees
      · exact hw.held j hj
    · rcases List.mem_append.mp hn with hnew | hold
      · refine ⟨r, hr, hkey a rfl name (Option.mem_toList.mp hnew), ?_⟩
        rw [hid]
        exact hsees
      · exact hw.asked name hold

variable [DecidableEq κ]

/-- An answer that was not cached is sound. -/
theorem sound_fetch (hask : ∀ a b, key a = key b → (ask a).name? = (ask b).name?)
    (h : Inv key ask s) (hf : s.fetch w (ask a) = some (found, t)) :
    Inv key ask t ∧ Sound key ask t w a found := by
  cases ha : ask a with
  | given g =>
    rw [ha] at hf
    obtain ⟨rfl, rfl⟩ : g = found ∧ s = t := by simpa [Shared.fetch] using hf
    refine ⟨h, fun i hi => ?_⟩
    have hset := h.given a i (by rw [ha, hi])
    obtain ⟨r, hr, hid⟩ := Table.mem_ids.mp hset.1
    refine ⟨hset.sees w, r, hr, hid, fun b hb name hname => ?_⟩
    rw [hask b a hb, ha] at hname
    cases hname
  | listed j name =>
    rw [ha] at hf
    obtain ⟨rfl, rfl⟩ : some j = found ∧ s = t := by simpa [Shared.fetch] using hf
    refine ⟨h, fun i hi => ?_⟩
    obtain rfl : j = i := by simpa using hi
    obtain ⟨hset, r, hr, hid, hkey⟩ := h.listed a j name ha
    refine ⟨hset.sees w, r, hr, hid, fun b hb n hn => ?_⟩
    rw [hask b a hb, ha] at hn
    exact hkey.trans (by simpa [Ask.name?] using hn)
  | make k row name =>
    rw [ha] at hf
    simp only [Shared.fetch] at hf
    split at hf
    · cases hf
    obtain ⟨rfl, rfl⟩ : (s.insertIgnore w row).readBack w name = found ∧
        s.insertIgnore w row = t := by simpa using hf
    refine ⟨h.insertIgnore, fun i hi => ?_⟩
    obtain ⟨r, hr, rfl⟩ := Option.map_eq_some_iff.mp hi
    obtain ⟨hget, hsees⟩ := Option.filter_eq_some_iff.mp hr
    refine ⟨by simpa using hsees, r, Table.get_mem hget, rfl, fun b hb n hn => ?_⟩
    rw [hask b a hb, ha] at hn
    exact (Table.get_key hget).trans (by simpa [Ask.name?] using hn)

/-- A lookup keeps the invariant, and its answer is sound unless its key was lost. -/
theorem Inv.look [LawfulBEq ν]
    (hask : ∀ a b, key a = key b → (ask a).name? = (ask b).name?)
    (h : Inv key ask s) (hl : s.look key ask w a = some (found, t))
    (hlost : key a ∉ (s.seat w).lost) : Inv key ask t ∧ Sound key ask t w a found := by
  unfold Shared.look at hl
  split at hl
  · next g hc =>
    obtain ⟨rfl, rfl⟩ : g = found ∧ s = t := by simpa using hl
    refine ⟨h, fun i hi => ?_⟩
    subst hi
    exact ((h.seats w).cached _ i hc hlost).1
  · next hc =>
    obtain ⟨⟨g, u⟩, hf, hr⟩ := Option.map_eq_some_iff.mp hl
    obtain ⟨rfl, rfl⟩ : g = found ∧ u.remember w (key a) g = t := by simpa using hr
    obtain ⟨hu, hsound⟩ := sound_fetch hask h hf
    have hnone : (u.seat w).cache.lookup (key a) = none := by
      rw [seat_of_fetch hf]
      exact hc
    exact ⟨hu.remember hnone hsound, hsound⟩

/-- The answer to a lookup of a key that was lost is the id of no row. -/
theorem look_of_lost (h : Inv key ask s) {a : α} (hlost : key a ∈ (s.seat w).lost) :
    ∃ i, s.look key ask w a = some (some i, s) ∧ s.Gone i := by
  obtain ⟨i, hc, hgone⟩ := (h.seats w).lost _ hlost
  exact ⟨i, by simp [Shared.look, hc], hgone⟩

end Look

/-! ### The end of a transaction keeps it -/

section Finish

variable [DecidableEq W]

theorem Inv.commit (h : Inv key ask s) (w : W) : Inv key ask (s.commit w) where
  pending p hp := h.pending p (mem_pending_finish.mp hp).1
  owner p hp q hq := h.owner p (mem_pending_finish.mp hp).1 q (mem_pending_finish.mp hq).1
  given a i ha := settled_commit ((h.given a i ha).sees w)
  listed a i name ha := by
    obtain ⟨hset, hr⟩ := h.listed a i name ha
    exact ⟨settled_commit (hset.sees w), hr⟩
  seats := by
    have hnames : ∀ {v x i}, s.Names key ask v x i → (s.commit w).Names key ask v x i :=
      fun hn => ⟨sees_commit hn.1, hn.2⟩
    refine (Function.forall_update_iff s.seat fun v q =>
      Tells key ask (s.commit w) v q).mpr ⟨?_, fun v hv => ?_⟩
    · -- the committing worker: its rows are no longer pending
      have hw := h.seats w
      refine ⟨fun v i hc hl => ⟨hnames (hw.cached v i hc hl).1, fun hp => ?_⟩, by simp,
        hw.lost, by simp, by simp⟩
      exact absurd rfl (mem_pending_finish.mp hp).2
    · have hw := h.seats v
      refine ⟨fun x i hc hl => ?_, fun x hx => ?_, hw.lost, fun i hi => sees_commit (hw.held i hi),
        fun name hn => ?_⟩
      · obtain ⟨hn, hb⟩ := hw.cached x i hc hl
        exact ⟨hnames hn, fun hp => hb (mem_pending_finish.mp hp).1⟩
      · obtain ⟨i, hc, hp⟩ := hw.born x hx
        exact ⟨i, hc, mem_pending_finish.mpr ⟨hp, hv⟩⟩
      · obtain ⟨r, hr, hk, hsees⟩ := hw.asked name hn
        exact ⟨r, hr, hk, sees_commit hsees⟩
  recorded name hn := by
    rcases List.mem_append.mp hn with hnew | hold
    · obtain ⟨r, hr, hk, hsees⟩ := (h.seats w).asked name hnew
      exact ⟨r, hr, hk, settled_commit hsees⟩
    · obtain ⟨r, hr, hk, hset⟩ := h.recorded name hold
      exact ⟨r, hr, hk, settled_commit (hset.sees w)⟩

theorem Inv.rollback (h : Inv key ask s) (w : W) : Inv key ask (s.rollback w) where
  pending p hp := by
    obtain ⟨hp, hw⟩ := mem_pending_finish.mp hp
    refine mem_ids_rollback.mpr ⟨h.pending p hp, fun hp' => hw ?_⟩
    exact h.owner p hp (p.1, w) hp' rfl
  owner p hp q hq := h.owner p (mem_pending_finish.mp hp).1 q (mem_pending_finish.mp hq).1
  given a i ha := settled_rollback (h.given a i ha)
  listed a i name ha := by
    obtain ⟨hset, r, hr, rfl, hk⟩ := h.listed a i name ha
    exact ⟨settled_rollback hset, r, mem_rows_rollback.mpr ⟨hr, fun hp => hset.2 _ hp rfl⟩, rfl, hk⟩
  seats := by
    refine (Function.forall_update_iff s.seat fun v q =>
      Tells key ask (s.rollback w) v q).mpr ⟨?_, fun v hv => ?_⟩
    · -- the worker itself: what its transaction inserted is lost
      have hw := h.seats w
      refine ⟨fun v i hc hl => ?_, by simp, fun v hv => ?_, by simp, by simp⟩
      · have hl' : v ∉ (s.seat w).born ∧ v ∉ (s.seat w).lost := by simpa using hl
        obtain ⟨hn, hb⟩ := hw.cached v i hc hl'.2
        have hp : (i, w) ∉ s.pending := fun hp => hl'.1 (hb hp)
        exact ⟨names_rollback hn hp, fun hp' => absurd (mem_pending_finish.mp hp').1 hp⟩
      · rcases List.mem_append.mp hv with hborn | hlost
        · obtain ⟨i, hc, hp⟩ := hw.born v hborn
          have hi : i < s.table.next := Table.lt_next_of_mem_ids (h.pending _ hp)
          exact ⟨i, hc, fun hi' => (mem_ids_rollback.mp hi').2 hp, hi⟩
        · obtain ⟨i, hc, hgone⟩ := hw.lost v hlost
          exact ⟨i, hc, gone_rollback hgone⟩
    · have hw := h.seats v
      refine ⟨fun x i hc hl => ?_, fun x hx => ?_, fun x hx => ?_, fun i hi => ?_,
        fun name hn => ?_⟩
      · obtain ⟨hn, hb⟩ := hw.cached x i hc hl
        exact ⟨names_rollback hn (not_pending_of_ne hn.1 hv),
          fun hp => hb (mem_pending_finish.mp hp).1⟩
      · obtain ⟨i, hc, hp⟩ := hw.born x hx
        exact ⟨i, hc, mem_pending_finish.mpr ⟨hp, hv⟩⟩
      · obtain ⟨i, hc, hgone⟩ := hw.lost x hx
        exact ⟨i, hc, gone_rollback hgone⟩
      · exact sees_rollback (hw.held i hi) (not_pending_of_ne (hw.held i hi) hv)
      · obtain ⟨r, hr, hk, hsees⟩ := hw.asked name hn
        have hp := not_pending_of_ne hsees hv
        exact ⟨r, mem_rows_rollback.mpr ⟨hr, hp⟩, hk, sees_rollback hsees hp⟩
  recorded name hn := by
    obtain ⟨r, hr, hk, hset⟩ := h.recorded name hn
    exact ⟨r, mem_rows_rollback.mpr ⟨hr, fun hp => hset.2 _ hp rfl⟩, hk, settled_rollback hset⟩

end Finish

/-! ### Runs -/

section Runs

variable [DecidableEq W] [DecidableEq κ]

/-- **The step lemma.**  Every event but the lookup of a lost key keeps the invariant. -/
theorem Inv.step [LawfulBEq ν]
    (hask : ∀ a b, key a = key b → (ask a).name? = (ask b).name?)
    (h : Inv key ask s) {e : Event W α} (he : NoLost key s e) : Inv key ask (s.step key ask e) := by
  cases e with
  | lookup w a =>
    simp only [Shared.step]
    split
    · exact h
    · next found t hl =>
      obtain ⟨ht, hsound⟩ := h.look hask hl he
      exact ht.hold hsound
  | attempt w a =>
    simp only [Shared.step]
    split
    · next hf => exact (sound_fetch hask h hf).1
    · exact h
  | commit w => exact h.commit w
  | rollback w => exact h.rollback w

/-- After the lookup of a lost key the transaction holds the id of no row. -/
theorem noLost_of_converged (h : Inv key ask s) {e : Event W α}
    (hc : Converged (s.step key ask e)) : NoLost key s e := by
  cases e with
  | lookup w a =>
    intro hlost
    obtain ⟨i, hl, hgone⟩ := look_of_lost h hlost
    have hstep : s.step key ask (.lookup w a) = s.hold w (ask a).name? (some i) := by
      simp only [Shared.step, hl]
    rw [hstep] at hc
    exact hgone.1 (hc.held w i (by simp [Shared.hold, Shared.setSeat])).1
  | attempt w a => trivial
  | commit w => trivial
  | rollback w => trivial

end Runs

end Invariant

end Interning
