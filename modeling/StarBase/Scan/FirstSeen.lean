import StarBase.Scan.Conserve
import StarBase.Scan.Derived

/-!
# When a row was inserted and when it says it was

Two inserts make rows of `files`.  The store writes `first_seen_utc` itself; the error row leaves it
to the column's default, which is in the time zone of the database session.

* `Chronicle` — the index with the instant at which each row was inserted and the offset its stamp
  was written with;
* `DeletesNew` — a reconciliation deletes only rows inserted since the scan began, and no row has at
  once vanished and appeared;
* `Dates` — no old row is stamped as new, and no row is stamped as seen before it was inserted;
* `deletes_new_of_dates` — **PROVED**: in every run from the empty index whose steps date their rows
  so, every reconciliation deletes new rows only.
-/

namespace StarBase.Scan

open Relational
open StarBase.Action (rootFor relUnder anchored)

/-- A write to the `files` table. -/
inductive IndexStep
  | write (st : FilesStep)
  | touch (id : ℕ) (now : Micros)

section Chronicles

variable [Host]

/-- The index; when the row with each id was inserted, and the offset from UTC of its stamp. -/
structure Chronicle where
  db : IndexDb
  born : ℕ → Micros
  zone : ℕ → Micros
  clock : Micros

/-- The empty index. -/
def Chronicle.start (operator : OperatorTables) (clock : Micros) : Chronicle where
  db := IndexDb.blank operator
  born _ := clock
  zone _ := 0
  clock := clock

/-- The rows that a step inserts are those whose ids were not there. -/
def Chronicle.insert (s : Chronicle) (db : IndexDb) (now zone : Micros) : Chronicle where
  db := db
  born i := if i ∈ s.db.files.ids then s.born i else now
  zone i := if i ∈ s.db.files.ids then s.zone i else zone
  clock := now

def Chronicle.next (cs : ℕ → Bool) (s : Chronicle) : IndexStep → Chronicle
  | .write st =>
    match st with
    | .store _ _ _ _ now => s.insert (st.after cs s.db) now 0
    | .error cfg _ _ now => s.insert (st.after cs s.db) now cfg.sessionOffset
    | .reconcile _ _ _ _ _ => { s with db := st.after cs s.db }
    | .writeBack _ _ _ _ => { s with db := st.after cs s.db }
  | .touch id now => { s with db := touchDb s.db id now }

/-- The server's clock does not go back. -/
def InOrder (s : Chronicle) : IndexStep → Prop
  | .write (.store _ _ _ _ now) => s.clock ≤ now
  | .write (.error _ _ _ now) => s.clock ≤ now
  | .write (.reconcile _ _ _ _ moment) => ∀ i, s.clock ≤ moment i
  | .write (.writeBack _ now _ _) => s.clock ≤ now
  | .touch _ now => s.clock ≤ now

/-- A reconciliation deletes only rows inserted since its scan began, and no row of its root has at
once vanished and appeared. -/
def DeletesNew (cs : ℕ → Bool) (s : Chronicle) : IndexStep → Prop
  | .write (.reconcile rootId ss prior order moment) =>
    (∀ i ∈ s.db.files.ids,
      i ∉ ((FilesStep.reconcile rootId ss prior order moment).after cs s.db).files.ids →
        ss ≤ s.born i) ∧
      ∀ r ∈ s.db.files.rows, ¬ (isVanished rootId ss r = true ∧ isAppeared rootId ss r = true)
  | _ => True

/-- At a reconciliation, a row inserted before the scan began was inserted longer before it than its
stamp runs ahead of UTC.  A file operation that stamps a row with the whole second does so in a
later second than the one the row was inserted in. -/
def Dates (s : Chronicle) : IndexStep → Prop
  | .write (.reconcile rootId ss _ _ _) => ∀ r ∈ s.db.files.rows, r.rootId = rootId →
      s.born r.id < ss → s.born r.id + s.zone r.id < ss
  | .write (.writeBack roots now fileId dst) => rootFor roots dst ≠ none →
      fileId ∈ s.db.files.ids → s.born fileId ≤ wholeSecond now * 1000000
  | _ => True

/-! ### The stamps of a row -/

/-- The stamps of the row say when it was inserted, but for the offset, and that it was seen then or
later. -/
structure Stamped (s : Chronicle) (r : FileRow) : Prop where
  first : r.firstSeenUtc = s.born r.id + s.zone r.id
  last : ∃ t, r.lastSeenUtc = some t ∧ s.born r.id ≤ t
  past : s.born r.id ≤ s.clock

def AllStamped (s : Chronicle) : Prop := ∀ r ∈ s.db.files.rows, Stamped s r

variable {s : Chronicle} {cs : ℕ → Bool}

theorem allStamped_start (operator : OperatorTables) (clock : Micros) :
    AllStamped (Chronicle.start operator clock) := by
  intro r hr
  cases hr

/-- A step that only updates rows keeps them stamped if it does not stamp them too early. -/
theorem AllStamped.update (h : AllStamped s) {db : IndexDb}
    (hrows : ∀ q ∈ db.files.rows, ∃ r ∈ s.db.files.rows, q.id = r.id ∧
      q.firstSeenUtc = r.firstSeenUtc ∧
      (q.lastSeenUtc = r.lastSeenUtc ∨ ∃ t, q.lastSeenUtc = some t ∧ s.born r.id ≤ t)) :
    AllStamped { s with db := db } := by
  intro q hq
  obtain ⟨r, hr, hid, hfirst, hlast⟩ := hrows q hq
  have hs := h r hr
  refine ⟨?_, ?_, ?_⟩
  · rw [hfirst, hs.first, hid]
  · rw [hid]
    rcases hlast with he | hnew
    · rw [he]
      exact hs.last
    · exact hnew
  · rw [hid]
    exact hs.past

/-- The row comes from a row that was there, whose last stamp it keeps or has from `now`, or it is
new and has both stamps from `now`. -/
def WrittenAt (s : Chronicle) (now zone : Micros) (q : FileRow) : Prop :=
  (∃ r ∈ s.db.files.rows, q.id = r.id ∧ q.firstSeenUtc = r.firstSeenUtc ∧
    (q.lastSeenUtc = r.lastSeenUtc ∨ q.lastSeenUtc = some now)) ∨
  (q.id ∉ s.db.files.ids ∧ q.firstSeenUtc = now + zone ∧ q.lastSeenUtc = some now)

theorem AllStamped.insert (h : AllStamped s) {db : IndexDb} {now zone : Micros}
    (hclock : s.clock ≤ now) (hrows : ∀ q ∈ db.files.rows, WrittenAt s now zone q) :
    AllStamped (s.insert db now zone) := by
  intro q hq
  rcases hrows q hq with ⟨r, hr, hid, hfirst, hlast⟩ | ⟨hfresh, hfirst, hlast⟩
  · have hs := h r hr
    have hmem : q.id ∈ s.db.files.ids := hid ▸ Table.id_mem_ids (K := fileKeying) hr
    have hborn : (s.insert db now zone).born q.id = s.born r.id := by
      rw [← hid]
      exact if_pos hmem
    have hzone : (s.insert db now zone).zone q.id = s.zone r.id := by
      rw [← hid]
      exact if_pos hmem
    refine ⟨by rw [hfirst, hs.first, hborn, hzone], ?_, ?_⟩
    · rw [hborn]
      rcases hlast with he | he
      · rw [he]
        exact hs.last
      · exact ⟨now, he, le_trans hs.past hclock⟩
    · rw [hborn]
      exact le_trans hs.past hclock
  · have hborn : (s.insert db now zone).born q.id = now := if_neg hfresh
    have hzone : (s.insert db now zone).zone q.id = zone := if_neg hfresh
    refine ⟨by rw [hborn, hzone, hfirst], ⟨now, hlast, ?_⟩, ?_⟩
    · rw [hborn]
    · rw [hborn]
      exact le_refl now

/-- An upsert writes the row it leaves at its instant. -/
theorem writtenAt_upsert {now zone : Micros} {k : ℕ × Str} {mk : RowMaker fileKeying k}
    {upd : RowUpdate fileKeying}
    (hmk : ∀ n, (mk.make n).firstSeenUtc = now + zone ∧ (mk.make n).lastSeenUtc = some now)
    (hupd : ∀ r, (upd.apply r).firstSeenUtc = r.firstSeenUtc ∧
      (upd.apply r).lastSeenUtc = some now) :
    ∀ q ∈ (s.db.files.upsert k mk upd).rows, WrittenAt s now zone q := by
  intro q hq
  rcases Table.mem_upsert_cases hq with ⟨hr, _⟩ | hnew
  · exact Or.inl ⟨q, hr, rfl, rfl, Or.inl rfl⟩
  · cases hget : s.db.files.get k with
    | some r =>
      rw [hget] at hnew
      have hq' : q = upd.apply r := hnew
      rw [hq']
      exact Or.inl ⟨r, Table.get_mem hget, upd.id_apply r, (hupd r).1, Or.inr (hupd r).2⟩
    | none =>
      rw [hget] at hnew
      have hq' : q = mk.make s.db.files.next := hnew
      have hid : (mk.make s.db.files.next).id = s.db.files.next := mk.id_make _
      rw [hq']
      refine Or.inr ⟨?_, (hmk _).1, (hmk _).2⟩
      rw [hid]
      exact s.db.files.next_not_mem

theorem writtenAt_of_mem {now zone : Micros} {q : FileRow} (hq : q ∈ s.db.files.rows) :
    WrittenAt s now zone q := Or.inl ⟨q, hq, rfl, rfl, Or.inl rfl⟩

theorem AllStamped.stored (h : AllStamped s) (cfg : SweepConfig) (caches : Caches) (f : DiskFile)
    (header : RawHeader) {now : Micros} (hclock : s.clock ≤ now) :
    AllStamped (s.next cs (.write (.store cfg caches f header now))) := by
  refine h.insert hclock ?_
  let info := f.offer.info (cfg.on cs) f.stat
  show ∀ q ∈ (storeFile cfg.store now info header ⟨s.db, caches⟩).2.db.files.rows, _
  rcases hs : storeFile cfg.store now info header ⟨s.db, caches⟩ with ⟨e | _, t⟩
  · obtain ⟨u, hu⟩ := storeFile_error hs
    show ∀ q ∈ t.db.files.rows, _
    rw [hu]
    exact fun q hq => writtenAt_of_mem hq
  · show ∀ q ∈ t.db.files.rows, _
    rw [(storeFile_ok hs).1]
    exact writtenAt_upsert (fun n => ⟨(add_zero now).symm, rfl⟩) fun r => ⟨rfl, rfl⟩

theorem AllStamped.failed (h : AllStamped s) (cfg : SweepConfig) (f : DiskFile) (what : Str)
    {now : Micros} (hclock : s.clock ≤ now) :
    AllStamped (s.next cs (.write (.error cfg f what now))) := by
  refine h.insert hclock ?_
  show ∀ q ∈ (if errorAccepted (cfg.on cs) f.offer f.stat what then
    errorDb (cfg.on cs) s.db f.offer f.stat what now else s.db).files.rows, _
  split
  · exact writtenAt_upsert (fun n => ⟨rfl, rfl⟩) fun r => ⟨rfl, rfl⟩
  · exact fun q hq => writtenAt_of_mem hq

theorem AllStamped.reconciled (h : AllStamped s) (rootId : ℕ) (ss : Micros) (prior : ℕ)
    (order : RowOrder) {moment : ℕ → Micros} (hclock : ∀ i, s.clock ≤ moment i) :
    AllStamped (s.next cs (.write (.reconcile rootId ss prior order moment))) := by
  refine h.update ?_
  show ∀ q ∈ (reconcileRoot rootId ss prior order moment s.db).db.files.rows, _
  cases hguard : guardTrips prior (seenNow s.db rootId ss) with
  | true =>
    rw [reconcile_guarded order moment hguard]
    exact fun q hq => ⟨q, hq, rfl, rfl, Or.inl rfl⟩
  | false =>
    intro q hq
    obtain ⟨r, hr, -, hb⟩ := ((reconcile_spec order moment hguard).rows q).mp hq
    refine ⟨r, hr, hb.id_eq, ?_⟩
    cases hb with
    | kept _ => exact ⟨rfl, Or.inl rfl⟩
    | moved a _ => exact ⟨rfl, Or.inr ⟨_, rfl, le_trans (h r hr).past (hclock r.id)⟩⟩
    | missing _ _ => exact ⟨rfl, Or.inl rfl⟩

theorem AllStamped.writtenBack (h : AllStamped s) (roots : List (ℕ × Str)) (now : Micros)
    (fileId : ℕ) (dst : Str) (hdates : Dates s (.write (.writeBack roots now fileId dst))) :
    AllStamped (s.next cs (.write (.writeBack roots now fileId dst))) := by
  refine h.update ?_
  show ∀ q ∈ (writeBackDb roots now fileId dst s.db).files.rows, _
  intro q hq
  rcases writeBackDb_cases roots now fileId dst s.db with ⟨_, hfiles⟩ | ⟨r, hroot, hsame | hrows⟩
  · rw [hfiles] at hq
    obtain ⟨a, ha, rfl⟩ := List.mem_map.mp hq
    refine ⟨a, ha, ?_⟩
    split
    · exact ⟨rfl, rfl, Or.inl rfl⟩
    · exact ⟨rfl, rfl, Or.inl rfl⟩
  · rw [hsame] at hq
    exact ⟨q, hq, rfl, rfl, Or.inl rfl⟩
  · rw [hrows] at hq
    obtain ⟨a, ha, rfl⟩ := List.mem_map.mp hq
    refine ⟨a, ha, ?_⟩
    split
    · next hid =>
      have hborn : s.born fileId ≤ wholeSecond now * 1000000 :=
        hdates (by simp [hroot]) (Table.mem_ids.mpr ⟨a, ha, hid⟩)
      rw [← hid] at hborn
      exact ⟨rfl, rfl, Or.inr ⟨_, rfl, hborn⟩⟩
    · exact ⟨rfl, rfl, Or.inl rfl⟩

theorem AllStamped.touched (h : AllStamped s) (id : ℕ) {now : Micros} (hclock : s.clock ≤ now) :
    AllStamped (s.next cs (.touch id now)) := by
  refine h.update ?_
  show ∀ q ∈ (s.db.files.modify _ _).rows, _
  intro q hq
  obtain ⟨a, ha, rfl⟩ := List.mem_map.mp hq
  refine ⟨a, ha, ?_⟩
  split
  · exact ⟨rfl, rfl, Or.inr ⟨now, rfl, le_trans (h a ha).past hclock⟩⟩
  · exact ⟨rfl, rfl, Or.inl rfl⟩

theorem AllStamped.step (h : AllStamped s) {e : IndexStep} (horder : InOrder s e)
    (hdates : Dates s e) : AllStamped (s.next cs e) := by
  cases e with
  | touch id now => exact h.touched id horder
  | write st =>
    cases st with
    | store cfg caches f header now => exact h.stored cfg caches f header horder
    | error cfg f what now => exact h.failed cfg f what horder
    | reconcile rootId ss prior order moment => exact h.reconciled rootId ss prior order horder
    | writeBack roots now fileId dst => exact h.writtenBack roots now fileId dst hdates

/-- Rows whose stamps are not ahead of UTC are dated. -/
theorem dates_of_behind (h : ∀ r ∈ s.db.files.rows, s.zone r.id ≤ 0) (rootId : ℕ) (ss : Micros)
    (prior : ℕ) (order : RowOrder) (moment : ℕ → Micros) :
    Dates s (.write (.reconcile rootId ss prior order moment)) := by
  intro r hr _ hold
  calc s.born r.id + s.zone r.id ≤ s.born r.id + 0 := Int.add_le_add_left (h r hr) _
    _ = s.born r.id := add_zero _
    _ < ss := hold

/-! ### What a reconciliation deletes -/

/-- A row whose stamps are right appeared only if it was inserted since the scan began, and then it
was seen. -/
theorem Stamped.new_of_appeared {r : FileRow} (h : Stamped s r) {rootId : ℕ} {ss : Micros}
    (hdates : r.rootId = rootId → s.born r.id < ss → s.born r.id + s.zone r.id < ss)
    (happeared : isAppeared rootId ss r = true) : ss ≤ s.born r.id ∧ seenSince ss r = true := by
  have hroot : r.rootId = rootId ∧ ss ≤ r.firstSeenUtc := by simpa [isAppeared] using happeared
  have hborn : ss ≤ s.born r.id := by
    by_contra hold
    have hstamp := hdates hroot.1 (not_le.mp hold)
    rw [← h.first] at hstamp
    exact absurd hroot.2 (not_le.mpr hstamp)
  obtain ⟨t, hlast, ht⟩ := h.last
  exact ⟨hborn, by simp [seenSince, hlast, le_trans hborn ht]⟩

theorem AllStamped.deletesNew (h : AllStamped s) {e : IndexStep} (hdates : Dates s e) :
    DeletesNew cs s e := by
  cases e with
  | touch id now => trivial
  | write st =>
    cases st with
    | store cfg caches f header now => trivial
    | error cfg f what now => trivial
    | writeBack roots now fileId dst => trivial
    | reconcile rootId ss prior order moment =>
      constructor
      · intro i hi hgone
        obtain ⟨r, hr, rfl⟩ := Table.mem_ids.mp hi
        have hgone' : r.id ∉ (reconcileRoot rootId ss prior order moment s.db).db.files.ids := hgone
        cases hguard : guardTrips prior (seenNow s.db rootId ss) with
        | true =>
          rw [reconcile_guarded order moment hguard] at hgone'
          exact absurd hi hgone'
        | false =>
          have hspec := reconcile_spec order moment hguard
          have hclaimed : ∃ v, Moved s.db rootId ss v r := by
            by_contra hnone
            obtain ⟨q, hq⟩ := exists_became s.db rootId ss moment r
            refine hgone' (Table.mem_ids.mpr ⟨q, (hspec.rows q).mpr ⟨r, hr, ?_, hq⟩, hq.id_eq⟩)
            exact fun v hv => hnone ⟨v, hv⟩
          obtain ⟨v, hv⟩ := hclaimed
          have happeared : isAppeared rootId ss r = true := (List.mem_filter.mp hv.appeared).2
          exact ((h r hr).new_of_appeared (hdates r hr) happeared).1
      · intro r hr hboth
        have hseen := ((h r hr).new_of_appeared (hdates r hr) hboth.2).2
        have hvanished := hboth.1
        simp [isVanished, hseen] at hvanished

/-- **Deleted rows are new.**  Take any run of the writes to `files` from the empty index, in which
the server's clock does not go back, under any time zones of the sessions.  If its steps date their
rows, each of its reconciliations deletes only rows inserted since its scan began, and takes no row
for vanished and new at once. -/
theorem deletes_new_of_dates (cs : ℕ → Bool) (operator : OperatorTables) (clock : Micros)
    (steps : List IndexStep)
    (horder : Run.Each (Chronicle.next cs) InOrder (Chronicle.start operator clock) steps)
    (hdates : Run.Each (Chronicle.next cs) Dates (Chronicle.start operator clock) steps) :
    Run.Each (Chronicle.next cs) (DeletesNew cs) (Chronicle.start operator clock) steps :=
  Run.each_of_invariant (I := AllStamped) (fun _ _ h he => h.step he.1 he.2)
    (fun _ _ h he => h.deletesNew he.2) (allStamped_start operator clock) (horder.and hdates)

end Chronicles

/-! ### A session ahead of UTC -/

section Ahead

attribute [local instance] plainHost

/-- A sweep of the root 1 over a session whose clock shows `offset` more than UTC. -/
def sweepAhead (offset : Micros) : SweepConfig where
  rootId := 1
  caseSensitive := true
  settleSeconds := 0
  store := ⟨⟨[], []⟩, {}, {}⟩
  sessionOffset := offset

def fileNamed (name : String) : DiskFile := fileAt name.toList ⟨2880, 0, 0, 1⟩ (.ok plainHeader)

/-- `a.fits` cannot be read at first and is stored at the next try.  When the scan that begins at 10
does not find it, `b.fits`, which cannot be read, is all it finds. -/
def fixedThenGone (offset : Micros) : List IndexStep :=
  [.write (.error (sweepAhead offset) (fileNamed "a.fits") [] 1),
    .write (.store (sweepAhead offset) {} (fileNamed "a.fits") plainHeader 2),
    .write (.error (sweepAhead offset) (fileNamed "b.fits") [] 11),
    .write (.reconcile 1 10 1 lastFirst fun _ => 20)]

instance (s : Chronicle) (e : IndexStep) : Decidable (DeletesNew (fun _ => true) s e) :=
  match e with
  | .write (.reconcile _ _ _ _ _) => inferInstanceAs (Decidable (_ ∧ _))
  | .write (.store _ _ _ _ _) => .isTrue trivial
  | .write (.error _ _ _ _) => .isTrue trivial
  | .write (.writeBack _ _ _ _) => .isTrue trivial
  | .touch _ _ => .isTrue trivial

theorem fixedThenGone_inOrder (offset : Micros) :
    Run.Each (Chronicle.next fun _ => true) InOrder (Chronicle.start {} 0) (fixedThenGone offset) :=
  ⟨(by decide : (0 : Int) ≤ 1), (by decide : (1 : Int) ≤ 2), (by decide : (2 : Int) ≤ 11),
    fun _ => (by decide : (11 : Int) ≤ 20), trivial⟩

/-- In UTC the row of `a.fits` is kept. -/
theorem deletes_new_in_utc :
    Run.Each (Chronicle.next fun _ => true) (DeletesNew fun _ => true) (Chronicle.start {} 0)
      (fixedThenGone 0) := by
  refine deletes_new_of_dates _ _ _ _ (fixedThenGone_inOrder 0)
    ⟨trivial, trivial, trivial, dates_of_behind ?_ 1 10 1 lastFirst _, trivial⟩
  decide

/-- Ahead of UTC the row of `a.fits`, stamped as new, is matched with itself and deleted. -/
theorem deletes_old_ahead :
    Run.Each (Chronicle.next fun _ => true) InOrder (Chronicle.start {} 0) (fixedThenGone 100) ∧
      ¬ Run.Each (Chronicle.next fun _ => true) (DeletesNew fun _ => true) (Chronicle.start {} 0)
        (fixedThenGone 100) := by
  refine ⟨fixedThenGone_inOrder 100, fun h => ?_⟩
  have hlast := h.2.2.2.1
  exact absurd hlast (by decide)

end Ahead

end StarBase.Scan
