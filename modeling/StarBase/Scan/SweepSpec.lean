import StarBase.Lib.WorkPool
import StarBase.Index.StoreSpec
import StarBase.Scan.Worker

/-!
# What a sweep leaves, whatever the interleaving

* `next_pool` — **PROVED**: the workers are a pool over the walk's files;
* `Sound`, `sound_sweep` — **PROVED**: in every state of every sweep a row has the stamp of the
  sweep if a settled file of its key is done, and is as it was before otherwise;
* `Complete.stamped`, `Complete.untouched` — **PROVED**: a complete sweep stamps the rows whose file
  was settled when a worker took it, and no other row changes.
-/

namespace StarBase.Scan

open Relational Extract

/-- The file a worker is busy with. -/
def Hand.offer : Hand → Option Offer
  | .idle => none
  | .popped o => some o
  | .touch o _ => some o
  | .store o _ _ => some o
  | .failed o _ _ => some o

/-- The instant of the write a file ended in. -/
def Outcome.time : Outcome → Option Micros
  | .touched t => some t
  | .stored t => some t
  | .failed t _ => some t
  | _ => none

/-- Whether a worker with the clock `now` gets past `stat` and settle gate. -/
def Offer.settled (cfg : SweepConfig) (now : Int) (o : Offer) : Bool :=
  o.stat.any fun st => !unsettled cfg now st

theorem settled_iff {cfg : SweepConfig} {now : Int} {o : Offer} :
    o.settled cfg now = true ↔ ∃ st, o.stat = some st ∧ unsettled cfg now st = false := by
  unfold Offer.settled
  cases o.stat with
  | none => simp
  | some st => simp

section Machine

variable [Host] {W : Type}

/-! ### The workers as a pool -/

def SweepState.pool (s : SweepState W) : WorkPool.Pool W Offer where
  queue := s.queue
  hand w := (s.hands w).offer
  done := s.trace.map Entry.offer

variable [DecidableEq W]

omit [Host] in
theorem hands_update_offer (hands : W → Hand) (w : W) (h : Hand) :
    (fun v => (Function.update hands w h v).offer)
      = Function.update (fun v => (hands v).offer) w h.offer := by
  funext v
  by_cases hv : v = w
  · rw [hv, Function.update_self, Function.update_self]
  · rw [Function.update_of_ne hv, Function.update_of_ne hv]

/-- A worker goes on with its file. -/
theorem pool_hold {s s' : SweepState W} {w : W} {h : Hand} (hq : s'.queue = s.queue)
    (hh : s'.hands = Function.update s.hands w h) (ht : s'.trace = s.trace)
    (ho : h.offer = (s.hands w).offer) : s'.pool = s.pool := by
  unfold SweepState.pool
  rw [hq, hh, ht, hands_update_offer, ho, Function.update_eq_self]

/-- A worker is done with its file. -/
theorem pool_finish {s s' : SweepState W} {w : W} {o : Offer} (out : Outcome)
    (hq : s'.queue = s.queue) (hh : s'.hands = Function.update s.hands w .idle)
    (ht : s'.trace = s.trace ++ [⟨w, o, out⟩]) :
    s'.pool = { s.pool with
      hand := Function.update s.pool.hand w none, done := s.pool.done ++ [o] } := by
  unfold SweepState.pool
  rw [hq, hh, ht, hands_update_offer, List.map_append]
  rfl

/-- How one event can move the sweep. -/
inductive Move (cfg : SweepConfig) (clock : W → Int) (s : SweepState W) : Event W → SweepState W → Prop
  | stop : Move cfg clock s .stop { s with stopped := true }
  | starve (w : W) (t : Micros) : s.hands w = .idle → s.queue = [] → Move cfg clock s (.work w t) s
  | take (w : W) (t : Micros) (o : Offer) (rest : List Offer) :
      s.hands w = .idle → s.queue = o :: rest →
      Move cfg clock s (.work w t) { s.put w (.popped o) with queue := rest }
  | drop (w : W) (t : Micros) (o : Offer) :
      s.hands w = .popped o → s.stopped = true →
      Move cfg clock s (.work w t) (s.finish w o .dropped)
  | gone (w : W) (t : Micros) (o : Offer) :
      s.hands w = .popped o → s.stopped = false → o.stat = none →
      Move cfg clock s (.work w t) (s.finish w o .gone)
  | settling (w : W) (t : Micros) (o : Offer) (st : FileStat) (stats : ScanStats) :
      s.hands w = .popped o → s.stopped = false → o.stat = some st →
      unsettled cfg (clock w) st = true → stats.added = s.stats.added →
      Move cfg clock s (.work w t) { s.finish w o .settling with stats := stats }
  | plan (w : W) (t : Micros) (o : Offer) (st : FileStat) (stats : ScanStats) :
      s.hands w = .popped o → s.stopped = false → o.stat = some st →
      unsettled cfg (clock w) st = false → stats.added = s.stats.added →
      Move cfg clock s (.work w t) { s.put w (plan cfg s.db o st) with stats := stats }
  | touch (w : W) (t : Micros) (o : Offer) (id : ℕ) (stats : ScanStats) :
      s.hands w = .touch o id → stats.added = s.stats.added →
      Move cfg clock s (.work w t)
        { s.finish w o (.touched t) with db := touchDb s.db id t, stats := stats }
  | store (w : W) (t : Micros) (o : Offer) (st : FileStat) (known : Bool) (header : RawHeader)
      (r : StoreState) (stats : ScanStats) :
      s.hands w = .store o st known → o.header = .ok header →
      storeFile cfg.store t (o.info cfg st) header ⟨s.db, s.caches w⟩ = (.ok (), r) →
      stats.added = (if known then s.stats.added else s.stats.added + 1) →
      Move cfg clock s (.work w t)
        { s.finish w o (.stored t) with
          db := r.db, caches := Function.update s.caches w r.caches, stats := stats }
  | unread (w : W) (t : Micros) (o : Offer) (st : FileStat) (known : Bool) (what : Str) :
      s.hands w = .store o st known → o.header = .error what →
      Move cfg clock s (.work w t) (s.put w (.failed o st what))
  | rollback (w : W) (t : Micros) (o : Offer) (st : FileStat) (known : Bool) (header : RawHeader)
      (e : Thrown) (r : StoreState) :
      s.hands w = .store o st known → o.header = .ok header →
      storeFile cfg.store t (o.info cfg st) header ⟨s.db, s.caches w⟩ = (.error e, r) →
      Move cfg clock s (.work w t)
        { s.put w (.failed o st (Thrown.what e)) with
          db := r.db, caches := Function.update s.caches w r.caches }
  | error (w : W) (t : Micros) (o : Offer) (st : FileStat) (what : Str) (stats : ScanStats) :
      s.hands w = .failed o st what → errorAccepted cfg o st what = true →
      stats.added = s.stats.added →
      Move cfg clock s (.work w t)
        { s.finish w o (.failed t what) with db := errorDb cfg s.db o st what t, stats := stats }
  | refuse (w : W) (t : Micros) (o : Offer) (st : FileStat) (what : Str) (stats : ScanStats) :
      s.hands w = .failed o st what → stats.added = s.stats.added →
      Move cfg clock s (.work w t) { s.finish w o (.refused t what) with stats := stats }

theorem next_move (cfg : SweepConfig) (clock : W → Int) (s : SweepState W) (e : Event W) :
    Move cfg clock s e (next cfg clock s e) := by
  cases e with
  | stop => exact .stop
  | work w t =>
    unfold next
    dsimp only
    cases hw : s.hands w with
    | idle =>
      dsimp only
      unfold takeNext
      cases hq : s.queue with
      | nil => exact .starve w t hw hq
      | cons o rest => exact .take w t o rest hw hq
    | popped o =>
      dsimp only
      unfold look
      by_cases hstop : s.stopped = true
      · rw [if_pos hstop]
        exact .drop w t o hw hstop
      · have hrun : s.stopped = false := by simpa using hstop
        rw [if_neg hstop]
        cases hst : o.stat with
        | none => exact .gone w t o hw hrun hst
        | some st =>
          dsimp only
          by_cases hu : unsettled cfg (clock w) st = true
          · rw [if_pos hu]
            exact .settling w t o st _ hw hrun hst hu rfl
          · rw [if_neg hu]
            exact .plan w t o st _ hw hrun hst (by simpa using hu) rfl
    | touch o id => exact .touch w t o id _ hw rfl
    | store o st known =>
      dsimp only
      unfold commitStore
      cases hh : o.header with
      | error what => exact .unread w t o st known what hw hh
      | ok header =>
        dsimp only
        cases hs : storeFile cfg.store t (o.info cfg st) header ⟨s.db, s.caches w⟩ with
        | mk res r =>
          cases res with
          | ok _ => exact .store w t o st known header r _ hw hh hs rfl
          | error e => exact .rollback w t o st known header e r hw hh hs
    | failed o st what =>
      dsimp only
      unfold commitError
      by_cases ha : errorAccepted cfg o st what = true
      · rw [if_pos ha]
        exact .error w t o st what _ hw ha rfl
      · rw [if_neg ha]
        exact .refuse w t o st what _ hw rfl

theorem plan_offer (cfg : SweepConfig) (db : IndexDb) (o : Offer) (st : FileStat) :
    (plan cfg db o st).offer = some o := by
  unfold plan
  split
  · split <;> rfl
  · rfl

/-- **The workers are a pool.** -/
theorem move_pool {cfg : SweepConfig} {clock : W → Int} {s s' : SweepState W} {e : Event W}
    (h : Move cfg clock s e s') : WorkPool.Step s.pool s'.pool := by
  have hold : ∀ {s' : SweepState W}, s'.pool = s.pool → WorkPool.Step s.pool s'.pool := by
    intro s' hs
    rw [hs]
    exact .stay _
  have finish : ∀ {s' : SweepState W} {w : W} {o : Offer}, (s.hands w).offer = some o →
      s'.pool = { s.pool with
        hand := Function.update s.pool.hand w none, done := s.pool.done ++ [o] } →
      WorkPool.Step s.pool s'.pool := by
    intro s' w o ho hs
    rw [hs]
    exact .finish _ w o ho
  cases h with
  | stop => exact hold rfl
  | starve => exact hold rfl
  | take w t o rest hw hq =>
    have hpool : SweepState.pool { s.put w (.popped o) with queue := rest }
        = { s.pool with queue := rest, hand := Function.update s.pool.hand w (some o) } := by
      unfold SweepState.pool SweepState.put
      rw [hands_update_offer]
      rfl
    rw [hpool]
    refine .take _ w o rest ?_ hq
    show (s.hands w).offer = none
    rw [hw]
    rfl
  | drop w t o hw => exact finish (by rw [hw]; rfl) (pool_finish .dropped rfl rfl rfl)
  | gone w t o hw => exact finish (by rw [hw]; rfl) (pool_finish .gone rfl rfl rfl)
  | settling w t o st stats hw =>
    exact finish (by rw [hw]; rfl) (pool_finish .settling rfl rfl rfl)
  | plan w t o st stats hw =>
    exact hold (pool_hold rfl rfl rfl (by rw [plan_offer, hw]; rfl))
  | touch w t o id stats hw =>
    exact finish (by rw [hw]; rfl) (pool_finish (.touched t) rfl rfl rfl)
  | store w t o st known header r stats hw =>
    exact finish (by rw [hw]; rfl) (pool_finish (.stored t) rfl rfl rfl)
  | unread w t o st known what hw => exact hold (pool_hold rfl rfl rfl (by rw [hw]; rfl))
  | rollback w t o st known header e r hw => exact hold (pool_hold rfl rfl rfl (by rw [hw]; rfl))
  | error w t o st what stats hw =>
    exact finish (by rw [hw]; rfl) (pool_finish (.failed t what) rfl rfl rfl)
  | refuse w t o st what stats hw =>
    exact finish (by rw [hw]; rfl) (pool_finish (.refused t what) rfl rfl rfl)

/-! ### The rows after one write -/

omit [DecidableEq W] in
theorem touchDb_get {cfg : SweepConfig} {db : IndexDb} {o : Offer} {r : FileRow} {t : Micros}
    (h : db.files.get (o.key cfg) = some r) (k : ℕ × Str) :
    (touchDb db r.id t).files.get k
      = if k = o.key cfg then some ((touchRow t).apply r) else db.files.get k := by
  show (db.files.modify _ _).get k = _
  rw [Table.get_modify]
  by_cases hk : k = o.key cfg
  · rw [if_pos hk, hk, h]
    simp
  · rw [if_neg hk]
    cases hl : db.files.get k with
    | none => rfl
    | some q =>
      have hid : q.id ≠ r.id := fun he => hk (Table.key_eq_of_id hl h he)
      simp [hid]

/-- The row an error leaves: the old row marked, or a new one under the id `i`. -/
def Offer.erroredOver (cfg : SweepConfig) (o : Offer) (st : FileStat) (what : Str) (t : Micros)
    (i : ℕ) (old : Option FileRow) : FileRow :=
  old.elim ((newErrorRow cfg o st what t).make i) (errorRow what t).apply

/-- What one write made of the `files` rows: the row of one key is stamped, or nothing changed. -/
structure RowWritten (k : ℕ × Str) (time : Option Micros) (d d' : IndexDb) : Prop where
  others : ∀ l, l ≠ k → d'.files.get l = d.files.get l
  untimed : time = none → d'.files.get k = d.files.get k
  timed : ∀ t, time = some t → ∃ r, d'.files.get k = some r ∧ r.lastSeenUtc = some t ∧
    r.status ≠ .missing ∧ ∀ q, d.files.get k = some q → r.id = q.id

theorem rowWritten_none {k : ℕ × Str} {d d' : IndexDb} (h : ∀ l, d'.files.get l = d.files.get l) :
    RowWritten k none d d' where
  others l _ := h l
  untimed _ := h k
  timed := by simp

theorem rowWritten_touch {cfg : SweepConfig} {db : IndexDb} {o : Offer} {r : FileRow} {t : Micros}
    (h : db.files.get (o.key cfg) = some r) :
    RowWritten (o.key cfg) (some t) db (touchDb db r.id t) where
  others l hl := by rw [touchDb_get h, if_neg hl]
  untimed := by simp
  timed t' ht := by
    cases ht
    refine ⟨(touchRow t).apply r, by rw [touchDb_get h, if_pos rfl], rfl, by simp [touchRow], ?_⟩
    intro q hq
    rw [h] at hq
    cases hq
    rfl

theorem rowWritten_store {ctx : StoreContext} {t : Micros} {info : FileInfo} {header : RawHeader}
    {s r : StoreState} (h : storeFile ctx t info header s = (.ok (), r)) :
    RowWritten info.key (some t) s.db r.db where
  others l hl := by
    rw [(storeFile_ok h).1]
    exact Table.get_upsert_ne hl
  untimed := by simp
  timed t' ht := by
    cases ht
    refine ⟨info.storedOver t s.db.files.next (s.db.files.get info.key), ?_, ?_, ?_, ?_⟩
    · rw [(storeFile_ok h).1]
      exact Table.get_upsert_self
    · cases s.db.files.get info.key <;> rfl
    · cases s.db.files.get info.key <;> simp [FileInfo.storedOver, FileInfo.newRow, FileInfo.storedRow]
    · intro q hq
      rw [hq]
      rfl

theorem rowWritten_error {cfg : SweepConfig} {db : IndexDb} {o : Offer} {st : FileStat} {what : Str}
    {t : Micros} : RowWritten (o.key cfg) (some t) db (errorDb cfg db o st what t) where
  others l hl := Table.get_upsert_ne hl
  untimed := by simp
  timed t' ht := by
    cases ht
    refine ⟨o.erroredOver cfg st what t db.files.next (db.files.get (o.key cfg)),
      Table.get_upsert_self, ?_, ?_, ?_⟩
    · cases db.files.get (o.key cfg) <;> rfl
    · cases db.files.get (o.key cfg) <;> simp [Offer.erroredOver, newErrorRow, errorRow]
    · intro q hq
      rw [hq]
      rfl

theorem RowWritten.keeps {k : ℕ × Str} {time : Option Micros} {d d' : IndexDb}
    (h : RowWritten k time d d') {l : ℕ × Str} {r : FileRow} (hr : d.files.get l = some r) :
    ∃ r', d'.files.get l = some r' ∧ r'.id = r.id := by
  by_cases hl : l = k
  · cases ht : time with
    | none =>
      rw [hl, h.untimed ht, ← hl]
      exact ⟨r, hr, rfl⟩
    | some t =>
      obtain ⟨r', hr', -, -, hid⟩ := h.timed t ht
      rw [hl] at hr ⊢
      exact ⟨r', hr', hid r hr⟩
  · rw [h.others l hl]
    exact ⟨r, hr, rfl⟩

/-! ### The invariant of a sweep -/

/-- What an outcome says about the file. -/
def Looked (cfg : SweepConfig) (clock : W → Int) (e : Entry W) : Prop :=
  match e.outcome with
  | .dropped => True
  | .gone => e.offer.settled cfg (clock e.worker) = false
  | .settling => e.offer.settled cfg (clock e.worker) = false
  | _ => e.offer.settled cfg (clock e.worker) = true

/-- A worker past the settle gate has a settled file, and touches the row of that file. -/
def HandSound (cfg : SweepConfig) (now : Int) (d : IndexDb) : Hand → Prop
  | .idle => True
  | .popped _ => True
  | .touch o id => o.settled cfg now = true ∧ ∃ r, d.files.get (o.key cfg) = some r ∧ r.id = id
  | .store o _ _ => o.settled cfg now = true
  | .failed o _ _ => o.settled cfg now = true

/-- The state of a sweep that began at the database `db` no earlier than `ss`. -/
structure Sound (cfg : SweepConfig) (clock : W → Int) (ss : Micros) (db : IndexDb)
    (s : SweepState W) : Prop where
  looked : ∀ e ∈ s.trace, Looked cfg clock e
  dropped : ∀ e ∈ s.trace, e.outcome = .dropped → s.stopped = true
  hands : ∀ w, HandSound cfg (clock w) s.db (s.hands w)
  untouched : ∀ k, (∀ e ∈ s.trace, e.offer.key cfg = k → e.outcome.time = none) →
    s.db.files.get k = db.files.get k
  stamped : ∀ e ∈ s.trace, e.outcome.time ≠ none → ∃ r t,
    s.db.files.get (e.offer.key cfg) = some r ∧ r.lastSeenUtc = some t ∧ ss ≤ t ∧
      r.status ≠ .missing
  keeps : ∀ k r, db.files.get k = some r → ∃ r', s.db.files.get k = some r' ∧ r'.id = r.id
  operator : OperatorKept db s.db

theorem HandSound.mono {cfg : SweepConfig} {now : Int} {d d' : IndexDb} {h : Hand}
    (hd : ∀ k r, d.files.get k = some r → ∃ r', d'.files.get k = some r' ∧ r'.id = r.id)
    (hh : HandSound cfg now d h) : HandSound cfg now d' h := by
  cases h with
  | idle => trivial
  | popped o => trivial
  | touch o id =>
    obtain ⟨hs, r, hr, hid⟩ := hh
    obtain ⟨r', hr', hid'⟩ := hd _ r hr
    exact ⟨hs, r', hr', hid'.trans hid⟩
  | store o st known => exact hh
  | failed o st what => exact hh

theorem handSound_plan {cfg : SweepConfig} {now : Int} {db : IndexDb} {o : Offer} {st : FileStat}
    (hst : o.stat = some st) (hu : unsettled cfg now st = false) :
    HandSound cfg now db (plan cfg db o st) := by
  have hs : o.settled cfg now = true := settled_iff.mpr ⟨st, hst, hu⟩
  unfold plan
  split
  · rename_i r hr
    split
    · exact ⟨hs, r, hr, rfl⟩
    · exact hs
  · exact hs

/-- A worker's step that finishes no file and writes no row. -/
theorem Sound.hold {cfg : SweepConfig} {clock : W → Int} {ss : Micros} {db : IndexDb}
    {s s' : SweepState W} (h : Sound cfg clock ss db s) {w : W} (hand : Hand)
    (hh : s'.hands = Function.update s.hands w hand) (ht : s'.trace = s.trace)
    (hstop : s.stopped = true → s'.stopped = true)
    (hrows : ∀ k, s'.db.files.get k = s.db.files.get k) (hop : OperatorKept s.db s'.db)
    (hhand : HandSound cfg (clock w) s'.db hand) : Sound cfg clock ss db s' where
  looked := by rw [ht]; exact h.looked
  dropped := by rw [ht]; exact fun e he ho => hstop (h.dropped e he ho)
  hands v := by
    rw [hh]
    by_cases hv : v = w
    · rw [hv, Function.update_self]
      exact hhand
    · rw [Function.update_of_ne hv]
      refine (h.hands v).mono fun k r hr => ⟨r, ?_, rfl⟩
      rw [hrows k]
      exact hr
  untouched k hk := by
    rw [ht] at hk
    rw [hrows k, h.untouched k hk]
  stamped e he hto := by
    rw [ht] at he
    rw [hrows]
    exact h.stamped e he hto
  keeps k r hr := by
    rw [hrows]
    exact h.keeps k r hr
  operator := h.operator.trans hop

/-- A worker's step that finishes a file. -/
theorem Sound.finish {cfg : SweepConfig} {clock : W → Int} {ss : Micros} {db : IndexDb}
    {s s' : SweepState W} (h : Sound cfg clock ss db s) {w : W} {o : Offer} (out : Outcome)
    (hh : s'.hands = Function.update s.hands w .idle) (ht : s'.trace = s.trace ++ [⟨w, o, out⟩])
    (hstop : s'.stopped = s.stopped) (hlooked : Looked cfg clock ⟨w, o, out⟩)
    (hdrop : out = .dropped → s.stopped = true) (htime : ∀ t, out.time = some t → ss ≤ t)
    (hrow : RowWritten (o.key cfg) out.time s.db s'.db) (hop : OperatorKept s.db s'.db) :
    Sound cfg clock ss db s' where
  looked e he := by
    rw [ht, List.mem_append, List.mem_singleton] at he
    rcases he with he | rfl
    · exact h.looked e he
    · exact hlooked
  dropped e he ho := by
    rw [hstop]
    rw [ht, List.mem_append, List.mem_singleton] at he
    rcases he with he | rfl
    · exact h.dropped e he ho
    · exact hdrop ho
  hands v := by
    rw [hh]
    by_cases hv : v = w
    · rw [hv, Function.update_self]
      trivial
    · rw [Function.update_of_ne hv]
      exact (h.hands v).mono fun k r hr => hrow.keeps hr
  untouched k hk := by
    rw [ht] at hk
    have hold := h.untouched k fun e he => hk e (List.mem_append_left _ he)
    by_cases hko : k = o.key cfg
    · have htn : out.time = none := hk ⟨w, o, out⟩ (by simp) hko.symm
      rw [← hold, hko]
      exact hrow.untimed htn
    · rw [hrow.others k hko, hold]
  stamped e he hto := by
    rw [ht, List.mem_append, List.mem_singleton] at he
    by_cases hk : e.offer.key cfg = o.key cfg
    · cases hout : out.time with
      | none =>
        rw [hk, hrow.untimed hout, ← hk]
        rcases he with he | rfl
        · exact h.stamped e he hto
        · exact absurd hout hto
      | some t =>
        obtain ⟨r, hr, hseen, hstatus, -⟩ := hrow.timed t hout
        rw [hk]
        exact ⟨r, t, hr, hseen, htime t hout, hstatus⟩
    · rcases he with he | rfl
      · rw [hrow.others _ hk]
        exact h.stamped e he hto
      · exact absurd rfl hk
  keeps k r hr := by
    obtain ⟨r', hr', hid⟩ := h.keeps k r hr
    obtain ⟨r'', hr'', hid'⟩ := hrow.keeps hr'
    exact ⟨r'', hr'', hid'.trans hid⟩
  operator := h.operator.trans hop

omit [DecidableEq W] in
theorem sound_start (cfg : SweepConfig) (clock : W → Int) (ss : Micros) (db : IndexDb)
    (offers : List Offer) : Sound cfg clock ss db (start (W := W) offers db) where
  looked := by simp [start]
  dropped := by simp [start]
  hands _ := trivial
  untouched _ _ := rfl
  stamped := by simp [start]
  keeps k r hr := ⟨r, hr, rfl⟩
  operator := OperatorKept.refl db

theorem rollback_operatorKept (db u : IndexDb) : OperatorKept db (db.rollback u) := ⟨rfl, rfl, rfl⟩

/-- **One event keeps the invariant.** -/
theorem sound_move {cfg : SweepConfig} {clock : W → Int} {ss : Micros} {db : IndexDb}
    {s s' : SweepState W} {e : Event W} (h : Sound cfg clock ss db s)
    (hafter : ∀ w t, e = .work w t → ss ≤ t) (hm : Move cfg clock s e s') :
    Sound cfg clock ss db s' := by
  cases hm with
  | stop => exact ⟨h.looked, fun _ _ _ => rfl, h.hands, h.untouched, h.stamped, h.keeps, h.operator⟩
  | starve => exact h
  | take w t o rest hw hq =>
    exact h.hold _ rfl rfl id (fun _ => rfl) (OperatorKept.refl _) trivial
  | drop w t o hw hstop =>
    exact h.finish .dropped rfl rfl rfl trivial (fun _ => hstop)
      (by simp [Outcome.time]) (rowWritten_none fun _ => rfl) (OperatorKept.refl _)
  | gone w t o hw hrun hst =>
    have hl : o.settled cfg (clock w) = false := by simp [Offer.settled, hst]
    exact h.finish .gone rfl rfl rfl hl (by simp)
      (by simp [Outcome.time]) (rowWritten_none fun _ => rfl) (OperatorKept.refl _)
  | settling w t o st stats hw hrun hst hu =>
    have hl : o.settled cfg (clock w) = false := by simp [Offer.settled, hst, hu]
    exact h.finish .settling rfl rfl rfl hl (by simp)
      (by simp [Outcome.time]) (rowWritten_none fun _ => rfl) (OperatorKept.refl _)
  | plan w t o st stats hw hrun hst hu =>
    exact h.hold _ rfl rfl id (fun _ => rfl) (OperatorKept.refl _) (handSound_plan hst hu)
  | touch w t o id stats hw =>
    have hhand := h.hands w
    rw [hw] at hhand
    obtain ⟨hs, r, hr, rfl⟩ := hhand
    exact h.finish (.touched t) rfl rfl rfl hs (by simp)
      (fun t' ht => by cases ht; exact hafter w t rfl) (rowWritten_touch hr) ⟨rfl, rfl, rfl⟩
  | store w t o st known header r stats hw hh hs =>
    have hhand := h.hands w
    rw [hw] at hhand
    exact h.finish (.stored t) rfl rfl rfl hhand (by simp)
      (fun t' ht => by cases ht; exact hafter w t rfl) (rowWritten_store hs) (storeFile_ok hs).2.2.1
  | unread w t o st known what hw hh =>
    have hhand := h.hands w
    rw [hw] at hhand
    exact h.hold _ rfl rfl id (fun _ => rfl) (OperatorKept.refl _) hhand
  | rollback w t o st known header e r hw hh hs =>
    have hhand := h.hands w
    rw [hw] at hhand
    obtain ⟨u, hu⟩ := storeFile_error hs
    refine h.hold (.failed o st (Thrown.what e)) rfl rfl id ?_ ?_ hhand
    · intro k
      show r.db.files.get k = _
      rw [hu]
      rfl
    · show OperatorKept s.db r.db
      rw [hu]
      exact rollback_operatorKept s.db u
  | error w t o st what stats hw ha =>
    have hhand := h.hands w
    rw [hw] at hhand
    exact h.finish (.failed t what) rfl rfl rfl hhand (by simp)
      (fun t' ht => by cases ht; exact hafter w t rfl) rowWritten_error ⟨rfl, rfl, rfl⟩
  | refuse w t o st what stats hw =>
    have hhand := h.hands w
    rw [hw] at hhand
    exact h.finish (.refused t what) rfl rfl rfl hhand (by simp)
      (by simp [Outcome.time]) (rowWritten_none fun _ => rfl) (OperatorKept.refl _)

/-- What every event keeps holds after a run of events. -/
theorem sweep_induct {cfg : SweepConfig} {clock : W → Int} {ss : Micros}
    {P : SweepState W → Prop}
    (hstep : ∀ s s' e, (∀ w t, e = .work w t → ss ≤ t) → Move cfg clock s e s' → P s → P s')
    {s : SweepState W} {events : List (Event W)} (hafter : AllAfter ss events) (hs : P s) :
    P (sweep cfg clock s events) := by
  induction events generalizing s with
  | nil => exact hs
  | cons e es ih =>
    have he : ∀ w t, e = .work w t → ss ≤ t := fun w t h => hafter e List.mem_cons_self w t h
    refine ih (fun e' he' => hafter e' (List.mem_cons_of_mem _ he')) ?_
    exact hstep s _ e he (next_move cfg clock s e) hs

theorem sound_sweep {cfg : SweepConfig} {clock : W → Int} {ss : Micros} {db : IndexDb}
    {offers : List Offer} {events : List (Event W)} (hafter : AllAfter ss events) :
    Sound cfg clock ss db (sweep cfg clock (start offers db) events) :=
  sweep_induct (P := Sound cfg clock ss db) (fun _ _ _ he hm h => sound_move h he hm) hafter
    (sound_start cfg clock ss db offers)

theorem conserved_sweep {cfg : SweepConfig} {clock : W → Int} {ss : Micros} {db : IndexDb}
    {offers : List Offer} {events : List (Event W)} (hafter : AllAfter ss events) :
    WorkPool.Conserved offers (sweep cfg clock (start offers db) events).pool :=
  sweep_induct (P := fun s : SweepState W => WorkPool.Conserved offers s.pool)
    (fun _ _ _ _ hm h => WorkPool.conserved_step h (move_pool hm)) hafter
    (WorkPool.conserved_start offers)

/-! ### Complete sweeps -/

/-- A file of the key `k` was settled when the worker that took it looked. -/
def SettledAt (cfg : SweepConfig) (clock : W → Int) (trace : List (Entry W)) (k : ℕ × Str) : Prop :=
  ∃ e ∈ trace, e.offer.key cfg = k ∧ e.offer.settled cfg (clock e.worker) = true

omit [DecidableEq W] in
/-- A complete sweep takes every file of the walk. -/
theorem Complete.taken {s : SweepState W} (h : Complete s) {offers : List Offer}
    (hc : WorkPool.Conserved offers s.pool) {o : Offer} :
    o ∈ offers ↔ ∃ e ∈ s.trace, e.offer = o := by
  rw [hc.all_done h.drained (fun w => by show (s.hands w).offer = none; rw [h.idle w]; rfl) o]
  exact List.mem_map

omit [DecidableEq W] in
/-- In a complete sweep a settled file is one that ended in a write. -/
theorem Complete.timed_iff {cfg : SweepConfig} {clock : W → Int} {ss : Micros} {db : IndexDb}
    {s : SweepState W} (hs : Sound cfg clock ss db s) (h : Complete s) {e : Entry W}
    (he : e ∈ s.trace) : e.outcome.time ≠ none ↔ e.offer.settled cfg (clock e.worker) = true := by
  have hlook := hs.looked e he
  unfold Looked at hlook
  cases ho : e.outcome with
  | dropped => exact absurd (hs.dropped e he ho) (by simp [h.running])
  | gone =>
    rw [ho] at hlook
    simp [Outcome.time, show e.offer.settled cfg (clock e.worker) = false from hlook]
  | settling =>
    rw [ho] at hlook
    simp [Outcome.time, show e.offer.settled cfg (clock e.worker) = false from hlook]
  | touched t =>
    rw [ho] at hlook
    simp [Outcome.time, show e.offer.settled cfg (clock e.worker) = true from hlook]
  | stored t =>
    rw [ho] at hlook
    simp [Outcome.time, show e.offer.settled cfg (clock e.worker) = true from hlook]
  | failed t what =>
    rw [ho] at hlook
    simp [Outcome.time, show e.offer.settled cfg (clock e.worker) = true from hlook]
  | refused t what => exact absurd ho (h.served e he t what)

omit [DecidableEq W] in
/-- The row of a settled file is stamped. -/
theorem Complete.stamped {cfg : SweepConfig} {clock : W → Int} {ss : Micros} {db : IndexDb}
    {s : SweepState W} (hs : Sound cfg clock ss db s) (h : Complete s) {k : ℕ × Str}
    (hk : SettledAt cfg clock s.trace k) : ∃ r t, s.db.files.get k = some r ∧
      r.lastSeenUtc = some t ∧ ss ≤ t ∧ r.status ≠ .missing := by
  obtain ⟨e, he, rfl, hset⟩ := hk
  exact hs.stamped e he ((h.timed_iff hs he).mpr hset)

omit [DecidableEq W] in
/-- Any other row is as it was. -/
theorem Complete.untouched {cfg : SweepConfig} {clock : W → Int} {ss : Micros} {db : IndexDb}
    {s : SweepState W} (hs : Sound cfg clock ss db s) (h : Complete s) {k : ℕ × Str}
    (hk : ¬ SettledAt cfg clock s.trace k) : s.db.files.get k = db.files.get k := by
  refine hs.untouched k fun e he hek => ?_
  by_contra hto
  exact hk ⟨e, he, hek, (h.timed_iff hs he).mp hto⟩

end Machine

end StarBase.Scan
