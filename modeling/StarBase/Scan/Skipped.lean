import StarBase.Lib.Run
import StarBase.Scan.History
import StarBase.Scan.SweepSpec

/-!
# Skipping unchanged files

The comparison drops what is below a second, and a worker's clock may be hours old.  The settle gate
still keeps the second of a stored row behind every write to come.

* `Kept` — as long as the file at a path has the size and the second of its row, its header is the
  one that was stored, and no later write will fall into that second;
* `Sound`, `sound_next` — the invariant of a history;
* `skipped_header` — **PROVED**: a file skipped as unchanged had, when it was looked at, the header
  that is stored for it.
-/

namespace StarBase.Scan.History

open Relational Extract

section Machine

variable [Host] {W : Type}

/-! ### The invariant -/

/-- The row at `k` is that of the last store, no later write falls into its second, and a file of its
size written in that second has the header that was stored.  `P` are the paths the walks yield. -/
def Kept (cfg : SweepConfig) (P : Str → Prop) (s : World W) (k : ℕ × Str) (r : FileRow) : Prop :=
  ∃ h m, lastStored cfg s.trace k = some h ∧ r.mtimeUtc = some m ∧ wholeSecond m < seconds s.now ∧
    ∀ p f, P p → keyOf cfg p = k → s.disk (foldPath cfg p) = some f →
      r.sizeBytes = some f.size → wholeSecond m = seconds f.written → f.header = .ok h

/-- The header in hand is the one stored for the file. -/
def Stored (cfg : SweepConfig) (s : World W) (o : Offer) : Prop :=
  ∃ h, lastStored cfg s.trace (o.key cfg) = some h ∧ o.header = .ok h

def HandKept (cfg : SweepConfig) (P : Str → Prop) (s : World W) (looked : Bool) : Hand → Prop
  | .idle => True
  | .popped o => P o.relPath ∧ (∀ st, o.stat = some st → wholeSecond st.mtime = st.mtimeSec) ∧
      (looked = true → ∀ st r, o.stat = some st → s.sweep.db.files.get (o.key cfg) = some r →
        unchanged r st = true → Stored cfg s o)
  | .touch o id => P o.relPath ∧ Stored cfg s o ∧ ∃ r, s.sweep.db.files.get (o.key cfg) = some r ∧
      r.id = id ∧ r.status = .ok
  | .store o st _ => P o.relPath ∧ st.mtimeSec < seconds s.now ∧
      wholeSecond st.mtime = st.mtimeSec ∧
      (looked = true → ∀ p f, P p → keyOf cfg p = o.key cfg → s.disk (foldPath cfg p) = some f →
        f.size = st.size → seconds f.written = st.mtimeSec → f.header = o.header)
  | .failed o _ _ => P o.relPath

/-- The files of the sweep by their keys. -/
def World.keys (cfg : SweepConfig) (s : World W) : WorkPool.Pool W (ℕ × Str) :=
  s.sweep.pool.map (Offer.key cfg)

structure Sound (cfg : SweepConfig) (P : Str → Prop) (s : World W) : Prop where
  conserved : WorkPool.Conserved s.offered (s.keys cfg)
  apart : WorkPool.Apart id (s.keys cfg)
  queued : ∀ o ∈ s.sweep.queue, ∃ p, P p ∧ o = itemOf p
  clocks : ∀ w c, s.clock w = some c → c ≤ seconds s.now
  started : ∀ w, s.sweep.hands w ≠ .idle → (s.clock w).isSome = true
  rows : ∀ k r, s.sweep.db.files.get k = some r → k.1 = cfg.rootId → r.status = .ok →
    Kept cfg P s k r
  hands : ∀ w, HandKept cfg P s (s.looked w) (s.sweep.hands w)
  faithful : Faithful cfg s.trace

/-! ### The disk and the clock -/

/-- Nothing moves but the clock and the disk, and what is new there was written by now. -/
structure DiskStep (s t : World W) : Prop where
  sweep : t.sweep = s.sweep
  clock : t.clock = s.clock
  looked : t.looked = s.looked
  offered : t.offered = s.offered
  past : t.past = s.past
  later : s.now ≤ t.now
  fresh : ∀ p f, t.disk p = some f → s.disk p = some f ∨ s.now ≤ f.written

theorem DiskStep.trace {s t : World W} (h : DiskStep s t) : t.trace = s.trace := by
  unfold World.trace
  rw [h.past, h.sweep]

theorem DiskStep.old {s t : World W} (h : DiskStep s t) {p : Str} {f : FileOnDisk}
    (hf : t.disk p = some f) {c : Int} (hc : c < seconds s.now) (he : seconds f.written = c) :
    s.disk p = some f := by
  rcases h.fresh p f hf with hold | hnew
  · exact hold
  · have := seconds_mono hnew
    omega

theorem DiskStep.stored {s t : World W} (h : DiskStep s t) {cfg : SweepConfig} {o : Offer}
    (ho : Stored cfg s o) : Stored cfg t o := by
  unfold Stored
  rw [h.trace]
  exact ho

theorem DiskStep.kept {s t : World W} (h : DiskStep s t) {cfg : SweepConfig} {P : Str → Prop}
    {k : ℕ × Str} {r : FileRow} (hk : Kept cfg P s k r) : Kept cfg P t k r := by
  obtain ⟨hd, m, hlast, hm, hlt, hsame⟩ := hk
  refine ⟨hd, m, by rw [h.trace]; exact hlast, hm, lt_of_lt_of_le hlt (seconds_mono h.later), ?_⟩
  intro p f hp hkey hf hsize hsec
  exact hsame p f hp hkey (h.old hf hlt hsec.symm) hsize hsec

theorem DiskStep.hand {s t : World W} (h : DiskStep s t) {cfg : SweepConfig} {P : Str → Prop}
    {looked : Bool} {hand : Hand} (hk : HandKept cfg P s looked hand) :
    HandKept cfg P t looked hand := by
  cases hand with
  | idle => trivial
  | popped o =>
    obtain ⟨hp, hst, hrow⟩ := hk
    refine ⟨hp, hst, ?_⟩
    intro hl st r ho hr hun
    rw [h.sweep] at hr
    exact h.stored (hrow hl st r ho hr hun)
  | touch o id =>
    obtain ⟨hp, hs, hr⟩ := hk
    refine ⟨hp, h.stored hs, ?_⟩
    rw [h.sweep]
    exact hr
  | store o st known =>
    obtain ⟨hp, hlt, hst, hsame⟩ := hk
    refine ⟨hp, lt_of_lt_of_le hlt (seconds_mono h.later), hst, ?_⟩
    intro hl p f hp' hkey hf hsize hsec
    exact hsame hl p f hp' hkey (h.old hf hlt hsec) hsize hsec
  | failed o st what => exact hk

theorem sound_disk {cfg : SweepConfig} {P : Str → Prop} {s t : World W} (hs : Sound cfg P s)
    (h : DiskStep s t) : Sound cfg P t where
  conserved := by
    unfold World.keys
    rw [h.offered, h.sweep]
    exact hs.conserved
  apart := by
    unfold World.keys
    rw [h.sweep]
    exact hs.apart
  queued := by
    rw [h.sweep]
    exact hs.queued
  clocks w c hc := by
    rw [h.clock] at hc
    exact le_trans (hs.clocks w c hc) (seconds_mono h.later)
  started w hw := by
    rw [h.sweep] at hw
    rw [h.clock]
    exact hs.started w hw
  rows k r hr hk hok := by
    rw [h.sweep] at hr
    exact h.kept (hs.rows k r hr hk hok)
  hands w := by
    rw [h.sweep, h.looked]
    exact h.hand (hs.hands w)
  faithful := by
    rw [h.trace]
    exact hs.faithful

/-! ### One worker -/

/-- Nothing moves but the worker `w`, the row of `k` and the header stored for it. -/
structure WorkerOnly [DecidableEq W] (cfg : SweepConfig) (s t : World W) (w : W) (k : ℕ × Str) :
    Prop where
  now : t.now = s.now
  disk : t.disk = s.disk
  clock : t.clock = s.clock
  offered : t.offered = s.offered
  step : WorkPool.Step (s.keys cfg) (t.keys cfg)
  queue : ∀ o ∈ t.sweep.queue, o ∈ s.sweep.queue
  hands : ∀ v, v ≠ w → t.sweep.hands v = s.sweep.hands v
  looked : ∀ v, v ≠ w → t.looked v = s.looked v
  others : ∀ v, v ≠ w → ∀ o, (s.sweep.hands v).offer = some o → o.key cfg ≠ k
  stored : ∀ l, l ≠ k → lastStored cfg t.trace l = lastStored cfg s.trace l
  rows : ∀ l, l ≠ k → t.sweep.db.files.get l = s.sweep.db.files.get l
  started : (s.clock w).isSome = true

theorem Kept.congr {cfg : SweepConfig} {P : Str → Prop} {s t : World W} {k : ℕ × Str} {r : FileRow}
    (h : Kept cfg P s k r) (hnow : t.now = s.now) (hdisk : t.disk = s.disk)
    (hstored : lastStored cfg t.trace k = lastStored cfg s.trace k) : Kept cfg P t k r := by
  unfold Kept
  rw [hnow, hdisk, hstored]
  exact h

theorem Stored.congr {cfg : SweepConfig} {s t : World W} {o : Offer} (h : Stored cfg s o)
    (hstored : lastStored cfg t.trace (o.key cfg) = lastStored cfg s.trace (o.key cfg)) :
    Stored cfg t o := by
  unfold Stored
  rw [hstored]
  exact h

theorem HandKept.congr {cfg : SweepConfig} {P : Str → Prop} {s t : World W} {looked : Bool}
    {hand : Hand} (h : HandKept cfg P s looked hand) (hnow : t.now = s.now) (hdisk : t.disk = s.disk)
    (hstored : ∀ o, hand.offer = some o →
      lastStored cfg t.trace (o.key cfg) = lastStored cfg s.trace (o.key cfg))
    (hrows : ∀ o, hand.offer = some o →
      t.sweep.db.files.get (o.key cfg) = s.sweep.db.files.get (o.key cfg)) :
    HandKept cfg P t looked hand := by
  cases hand with
  | idle => trivial
  | popped o =>
    obtain ⟨hp, hst, hrow⟩ := h
    refine ⟨hp, hst, ?_⟩
    intro hl st r ho hr hun
    rw [hrows o rfl] at hr
    exact (hrow hl st r ho hr hun).congr (hstored o rfl)
  | touch o id =>
    obtain ⟨hp, hs, r, hr, hid⟩ := h
    exact ⟨hp, hs.congr (hstored o rfl), r, (hrows o rfl).trans hr, hid⟩
  | store o st known =>
    obtain ⟨hp, hlt, hst, hsame⟩ := h
    refine ⟨hp, by rw [hnow]; exact hlt, hst, ?_⟩
    rw [hdisk]
    exact hsame
  | failed o st what => exact h

section Workers

variable [DecidableEq W] {cfg : SweepConfig} {P : Str → Prop} {s t : World W} {w : W}

theorem Sound.move {k : ℕ × Str} (hs : Sound cfg P s) (h : WorkerOnly cfg s t w k)
    (hrow : ∀ r, t.sweep.db.files.get k = some r → k.1 = cfg.rootId → r.status = .ok →
      Kept cfg P t k r)
    (hhand : HandKept cfg P t (t.looked w) (t.sweep.hands w))
    (hfaithful : Faithful cfg t.trace) : Sound cfg P t where
  conserved := by
    rw [h.offered]
    exact WorkPool.conserved_step hs.conserved h.step
  apart := WorkPool.apart_step hs.apart h.step
  queued o ho := hs.queued o (h.queue o ho)
  clocks v c hc := by
    rw [h.clock] at hc
    rw [h.now]
    exact hs.clocks v c hc
  started v hv := by
    rw [h.clock]
    by_cases he : v = w
    · rw [he]
      exact h.started
    · rw [h.hands v he] at hv
      exact hs.started v hv
  rows l r hr hl hok := by
    by_cases he : l = k
    · rw [he] at hr hl ⊢
      exact hrow r hr hl hok
    · rw [h.rows l he] at hr
      exact (hs.rows l r hr hl hok).congr h.now h.disk (h.stored l he)
  hands v := by
    by_cases he : v = w
    · rw [he]
      exact hhand
    · rw [h.hands v he, h.looked v he]
      refine (hs.hands v).congr h.now h.disk ?_ ?_
      · exact fun o ho => h.stored _ (h.others v he o ho)
      · exact fun o ho => h.rows _ (h.others v he o ho)
  faithful := hfaithful

omit [DecidableEq W] in
/-- Two workers do not hold files of one key. -/
theorem Sound.others (hs : Sound cfg P s) {o : Offer} (ho : (s.sweep.hands w).offer = some o) :
    ∀ v, v ≠ w → ∀ q, (s.sweep.hands v).offer = some q → q.key cfg ≠ o.key cfg := by
  intro v hv q hq he
  have hhand : ∀ u p, (s.sweep.hands u).offer = some p →
      (s.keys cfg).hand u = some (p.key cfg) := by
    intro u p hp
    show ((s.sweep.hands u).offer).map (Offer.key cfg) = _
    rw [hp]
    rfl
  exact hv (hs.apart.hands v w _ _ (hhand v q hq) (hhand w o ho) he)

/-- A key of another root. -/
def elsewhere (cfg : SweepConfig) : ℕ × Str := (cfg.rootId + 1, [])

theorem key_ne_elsewhere (o : Offer) : o.key cfg ≠ elsewhere cfg := by
  intro he
  have hroot : cfg.rootId = cfg.rootId + 1 := congrArg Prod.fst he
  omega

/-- A worker goes on with its file and writes nothing. -/
theorem Sound.hold (hs : Sound cfg P s) (hnow : t.now = s.now) (hdisk : t.disk = s.disk)
    (hclock : t.clock = s.clock) (hoffered : t.offered = s.offered)
    (hstep : WorkPool.Step (s.keys cfg) (t.keys cfg))
    (hqueue : ∀ o ∈ t.sweep.queue, o ∈ s.sweep.queue)
    (hhands : ∀ v, v ≠ w → t.sweep.hands v = s.sweep.hands v)
    (hlooked : ∀ v, v ≠ w → t.looked v = s.looked v) (htrace : t.trace = s.trace)
    (hrows : ∀ l, t.sweep.db.files.get l = s.sweep.db.files.get l)
    (hstarted : (s.clock w).isSome = true)
    (hhand : HandKept cfg P t (t.looked w) (t.sweep.hands w)) : Sound cfg P t := by
  refine hs.move (w := w) (k := elsewhere cfg) ⟨hnow, hdisk, hclock, hoffered, hstep, hqueue, hhands,
    hlooked, ?_, ?_, fun l _ => hrows l, hstarted⟩ ?_ hhand ?_
  · exact fun v _ o _ => key_ne_elsewhere o
  · intro l _
    rw [htrace]
  · intro r _ hroot _
    have : cfg.rootId + 1 = cfg.rootId := hroot
    omega
  · rw [htrace]
    exact hs.faithful

/-- A worker is done with its file; what becomes of the row is `hrow`. -/
theorem Sound.finish (hs : Sound cfg P s) {o : Offer} {out : Outcome}
    (ho : (s.sweep.hands w).offer = some o) (hnow : t.now = s.now) (hdisk : t.disk = s.disk)
    (hclock : t.clock = s.clock) (hoffered : t.offered = s.offered)
    (hstep : WorkPool.Step (s.keys cfg) (t.keys cfg)) (hqueue : t.sweep.queue = s.sweep.queue)
    (hhands : t.sweep.hands = Function.update s.sweep.hands w .idle)
    (hlooked : ∀ v, v ≠ w → t.looked v = s.looked v)
    (htrace : t.trace = s.trace ++ [⟨w, o, out⟩])
    (hrows : ∀ l, l ≠ o.key cfg → t.sweep.db.files.get l = s.sweep.db.files.get l)
    (hrow : ∀ r, t.sweep.db.files.get (o.key cfg) = some r → r.status = .ok →
      Kept cfg P t (o.key cfg) r)
    (htouched : ∀ t', out = .touched t' → Stored cfg s o) : Sound cfg P t := by
  have hstarted : (s.clock w).isSome = true := by
    refine hs.started w ?_
    intro hidle
    rw [hidle] at ho
    cases ho
  refine hs.move (w := w) (k := o.key cfg) ⟨hnow, hdisk, hclock, hoffered, hstep, ?_, ?_, hlooked,
    hs.others ho, ?_, hrows, hstarted⟩ (fun r hr _ hok => hrow r hr hok) ?_ ?_
  · rw [hqueue]
    exact fun q hq => hq
  · intro v hv
    rw [hhands, Function.update_of_ne hv]
  · intro l hl
    rw [htrace]
    exact lastStored_other (storedBy_ne (Ne.symm hl))
  · rw [hhands, Function.update_self]
    trivial
  · rw [htrace]
    refine faithful_append hs.faithful ?_
    intro t' ht'
    obtain ⟨h, hlast, hh⟩ := htouched t' ht'
    exact ⟨h, hh, hlast⟩

omit [DecidableEq W] in
/-- A row that no write of this step made is kept as it was. -/
theorem Sound.kept_of_same (hs : Sound cfg P s) {o : Offer} {out : Outcome} (hnow : t.now = s.now)
    (hdisk : t.disk = s.disk) (htrace : t.trace = s.trace ++ [⟨w, o, out⟩])
    (hout : ∀ t', out ≠ .stored t') {r q : FileRow}
    (hq : s.sweep.db.files.get (o.key cfg) = some q) (hok : q.status = .ok)
    (hsize : r.sizeBytes = q.sizeBytes) (hmtime : r.mtimeUtc = q.mtimeUtc) :
    Kept cfg P t (o.key cfg) r := by
  have hkept := hs.rows _ q hq rfl hok
  have hstored : lastStored cfg t.trace (o.key cfg) = lastStored cfg s.trace (o.key cfg) := by
    rw [htrace]
    exact lastStored_other (storedBy_other hout)
  have hkept' := hkept.congr hnow hdisk hstored
  unfold Kept at hkept' ⊢
  rw [hsize, hmtime]
  exact hkept'

/-- The world after a step of the worker `w`. -/
def World.worked (s : World W) (w : W) (sw : SweepState W) : World W :=
  { s with sweep := sw, looked := Function.update s.looked w false }

omit [DecidableEq W] in
theorem storedBy_stored {o : Offer} {t : Micros} {header : RawHeader} (h : o.header = .ok header) :
    storedBy cfg (o.key cfg) (⟨w, o, .stored t⟩ : Entry W) = some header := by
  unfold storedBy
  rw [if_pos rfl]
  dsimp only
  rw [h]

theorem worked_trace (w : W) (sw : SweepState W) {e : Entry W} (h : sw.trace = s.sweep.trace ++ [e]) :
    (s.worked w sw).trace = s.trace ++ [e] := by
  show s.past ++ sw.trace = s.past ++ s.sweep.trace ++ [e]
  rw [h, List.append_assoc]

omit [Host] in
theorem unchanged_iff {r : FileRow} {st : FileStat} : unchanged r st = true ↔
    r.status = .ok ∧ r.sizeBytes = some st.size ∧
      r.mtimeUtc.map wholeSecond = some (wholeSecond st.mtime) := by
  unfold unchanged
  simp [and_assoc]

omit [DecidableEq W] in
/-- What the change detection leaves in hand. -/
theorem handKept_plan {o : Offer} {st : FileStat} (hp : P o.relPath)
    (hlt : st.mtimeSec < seconds s.now) (hsec : wholeSecond st.mtime = st.mtimeSec)
    (hrow : ∀ r, s.sweep.db.files.get (o.key cfg) = some r → unchanged r st = true →
      Stored cfg s o) :
    HandKept cfg P s false (plan (s.config cfg) s.sweep.db o st) := by
  unfold plan
  have hkey : o.key (s.config cfg) = o.key cfg := rfl
  rw [hkey]
  cases hr : s.sweep.db.files.get (o.key cfg) with
  | none => exact ⟨hp, hlt, hsec, nofun⟩
  | some r =>
    dsimp only
    by_cases hun : unchanged r st = true
    · rw [if_pos hun]
      exact ⟨hp, hrow r hr hun, r, hr, rfl, (unchanged_iff.mp hun).1⟩
    · rw [if_neg hun]
      exact ⟨hp, hlt, hsec, nofun⟩

omit [DecidableEq W] in
/-- The row of a store has the size and the time of the `stat`. -/
theorem stored_stat {o : Offer} {st : FileStat} {t : Micros} {header : RawHeader} {ctx : StoreContext}
    {u r : StoreState} (h : storeFile ctx t (o.info cfg st) header u = (.ok (), r)) {q : FileRow}
    (hq : r.db.files.get (o.key cfg) = some q) :
    q.sizeBytes = some st.size ∧ q.mtimeUtc = some st.mtime := by
  have hget : r.db.files.get (o.info cfg st).key = some q := hq
  rw [(storeFile_ok h).1, Table.get_upsert_self] at hget
  cases hget
  cases u.db.files.get (o.info cfg st).key <;> exact ⟨rfl, rfl⟩

omit [DecidableEq W] in
theorem errored_status {db : IndexDb} {o : Offer} {st : FileStat} {what : Str} {t : Micros}
    {q : FileRow} (hq : (errorDb cfg db o st what t).files.get (o.key cfg) = some q) :
    q.status ≠ .ok := by
  have hget : (errorDb cfg db o st what t).files.get (o.key cfg) =
      some (o.erroredOver cfg st what t db.files.next (db.files.get (o.key cfg))) :=
    Table.get_upsert_self
  rw [hget] at hq
  cases hq
  cases db.files.get (o.key cfg) <;> exact nofun

/-- A worker settles on a file without touching the index. -/
theorem Sound.settle (hs : Sound cfg P s) {o : Offer} {out : Outcome}
    (ho : (s.sweep.hands w).offer = some o) {sw : SweepState W}
    (hstep : WorkPool.Step (s.keys cfg) ((s.worked w sw).keys cfg))
    (hqueue : sw.queue = s.sweep.queue)
    (hhands : sw.hands = Function.update s.sweep.hands w .idle)
    (htrace : sw.trace = s.sweep.trace ++ [⟨w, o, out⟩]) (hdb : sw.db = s.sweep.db)
    (hstored : ∀ t, out ≠ .stored t) (htouched : ∀ t, out ≠ .touched t) :
    Sound cfg P (s.worked w sw) := by
  have hall := worked_trace w sw htrace
  refine hs.finish ho rfl rfl rfl rfl hstep hqueue hhands
    (fun v hv => Function.update_of_ne hv _ _) hall ?_ ?_ ?_
  · intro l _
    show sw.db.files.get l = _
    rw [hdb]
  · intro r hr hok
    rw [show (s.worked w sw).sweep.db = s.sweep.db from hdb] at hr
    exact hs.kept_of_same (t := s.worked w sw) rfl rfl hall hstored hr hok rfl rfl
  · exact fun t ht => absurd ht (htouched t)

/-- A worker goes on to the next thing to do with its file. -/
theorem Sound.goOn (hs : Sound cfg P s) {sw : SweepState W} {h : Hand}
    (hstep : WorkPool.Step (s.keys cfg) ((s.worked w sw).keys cfg))
    (hqueue : ∀ o ∈ sw.queue, o ∈ s.sweep.queue)
    (hhands : sw.hands = Function.update s.sweep.hands w h) (htrace : sw.trace = s.sweep.trace)
    (hrows : ∀ l, sw.db.files.get l = s.sweep.db.files.get l)
    (hstarted : (s.clock w).isSome = true) (hhand : HandKept cfg P s false h) :
    Sound cfg P (s.worked w sw) := by
  have hall : (s.worked w sw).trace = s.trace := by
    show s.past ++ sw.trace = s.past ++ s.sweep.trace
    rw [htrace]
  refine hs.hold (w := w) rfl rfl rfl rfl hstep hqueue ?_
    (fun v hv => Function.update_of_ne hv _ _) hall hrows hstarted ?_
  · intro v hv
    show sw.hands v = _
    rw [hhands, Function.update_of_ne hv]
  · have hl : (s.worked w sw).looked w = false := Function.update_self _ _ _
    have hh : (s.worked w sw).sweep.hands w = h := by
      show sw.hands w = h
      rw [hhands, Function.update_self]
    rw [hl, hh]
    exact hhand.congr rfl rfl (fun o _ => by rw [hall]) (fun o _ => hrows _)

omit [DecidableEq W] in
/-- The gate lets through what was last written before the worker's second. -/
theorem settled_before (hsettle : 1 ≤ cfg.settleSeconds) (hs : Sound cfg P s)
    (hstarted : (s.clock w).isSome = true) {st : FileStat}
    (hu : unsettled (s.config cfg) (s.clockOf w) st = false) : st.mtimeSec < seconds s.now := by
  obtain ⟨c, hc⟩ := Option.isSome_iff_exists.mp hstarted
  have hle := hs.clocks w c hc
  have hclock : s.clockOf w = c := by
    unfold World.clockOf
    rw [hc]
    rfl
  have hgate : ¬ s.clockOf w - st.mtimeSec < cfg.settleSeconds := of_decide_eq_false hu
  rw [hclock] at hgate
  omega

theorem sound_work (hsettle : 1 ≤ cfg.settleSeconds) (hs : Sound cfg P s) (hready : s.ready w = true)
    {t : Micros} {sw : SweepState W}
    (hm : Move (s.config cfg) s.clockOf s.sweep (.work w t) sw) : Sound cfg P (s.worked w sw) := by
  have hstep : WorkPool.Step (s.keys cfg) ((s.worked w sw).keys cfg) :=
    WorkPool.step_map (Offer.key cfg) (move_pool hm)
  have hstarted : s.sweep.hands w ≠ .idle → (s.clock w).isSome = true := hs.started w
  have hhand := hs.hands w
  unfold World.ready at hready
  cases hm with
  | starve w t hw hq =>
    rw [hw] at hready
    refine hs.goOn (h := .idle) hstep (fun o ho => ho) ?_ rfl (fun l => rfl) hready trivial
    rw [← hw, Function.update_eq_self]
  | take w t o rest hw hq =>
    rw [hw] at hready
    obtain ⟨p, hp, rfl⟩ := hs.queued o (by rw [hq]; exact List.mem_cons_self)
    refine hs.goOn (h := .popped (itemOf p)) hstep ?_ rfl rfl (fun l => rfl) hready ?_
    · intro q hq'
      rw [hq]
      exact List.mem_cons_of_mem _ hq'
    · exact ⟨hp, nofun, nofun⟩
  | drop w t o hw hstop =>
    exact hs.settle (by rw [hw]; rfl) hstep rfl rfl rfl rfl nofun nofun
  | gone w t o hw hrun hst =>
    exact hs.settle (by rw [hw]; rfl) hstep rfl rfl rfl rfl nofun nofun
  | settling w t o st stats hw hrun hst hu =>
    exact hs.settle (by rw [hw]; rfl) hstep rfl rfl rfl rfl nofun nofun
  | plan w t o st stats hw hrun hst hu =>
    rw [hw] at hready hhand hstarted
    rw [hrun, Bool.or_false] at hready
    obtain ⟨hp, hsec, hrow⟩ := hhand
    have hstart := hstarted nofun
    refine hs.goOn hstep (fun o ho => ho) rfl rfl (fun l => rfl) hstart ?_
    exact handKept_plan hp (settled_before hsettle hs hstart hu) (hsec st hst)
      fun r hr hun => hrow hready st r hst hr hun
  | touch w t o id stats hw =>
    rw [hw] at hhand
    obtain ⟨hp, hstored, r, hr, rfl, hok⟩ := hhand
    have hrows : ∀ l, (touchDb s.sweep.db r.id t).files.get l =
        if l = o.key cfg then some ((touchRow t).apply r) else s.sweep.db.files.get l :=
      touchDb_get hr
    have hall := worked_trace (s := s) w { s.sweep.finish w o (.touched t) with
      db := touchDb s.sweep.db r.id t, stats := stats } rfl
    refine hs.finish (by rw [hw]; rfl) rfl rfl rfl rfl hstep rfl rfl
      (fun v hv => Function.update_of_ne hv _ _) hall ?_ ?_ (fun _ _ => hstored)
    · intro l hl
      exact (hrows l).trans (if_neg hl)
    · intro q hq _
      have hq' := (hrows (o.key cfg)).symm.trans hq
      rw [if_pos rfl] at hq'
      cases hq'
      exact hs.kept_of_same (t := s.worked w _) rfl rfl hall nofun hr hok rfl rfl
  | store w t o st known header r stats hw hh hstore =>
    rw [hw] at hready hhand
    obtain ⟨hp, hlt, hsec, hsame⟩ := hhand
    have hall := worked_trace (s := s) w { s.sweep.finish w o (.stored t) with
      db := r.db, caches := Function.update s.sweep.caches w r.caches, stats := stats } rfl
    refine hs.finish (by rw [hw]; rfl) rfl rfl rfl rfl hstep rfl rfl
      (fun v hv => Function.update_of_ne hv _ _) hall ?_ ?_ nofun
    · exact (rowWritten_store hstore).others
    · intro q hq _
      obtain ⟨hsize, hmtime⟩ := stored_stat hstore hq
      refine ⟨header, st.mtime, ?_, hmtime, by rw [hsec]; exact hlt, ?_⟩
      · rw [hall, lastStored_append, storedBy_stored hh]
        rfl
      · intro p f hp' hkey hf hsize' hsec'
        rw [hsize] at hsize'
        rw [← hh]
        exact hsame hready p f hp' hkey hf (Option.some.inj hsize').symm (hsec'.symm.trans hsec)
  | unread w t o st known what hw hh =>
    rw [hw] at hhand hstarted
    exact hs.goOn (h := .failed o st what) hstep (fun o ho => ho) rfl rfl (fun l => rfl)
      (hstarted nofun) hhand.1
  | rollback w t o st known header e r hw hh hstore =>
    rw [hw] at hhand hstarted
    obtain ⟨u, hu⟩ := storeFile_error hstore
    refine hs.goOn (h := .failed o st (Thrown.what e)) hstep (fun o ho => ho) rfl rfl ?_
      (hstarted nofun) hhand.1
    intro l
    show r.db.files.get l = _
    rw [hu]
    rfl
  | error w t o st what stats hw ha =>
    refine hs.finish (by rw [hw]; rfl) rfl rfl rfl rfl hstep rfl rfl
      (fun v hv => Function.update_of_ne hv _ _) (worked_trace w _ rfl) ?_ ?_ nofun
    · exact rowWritten_error.others
    · intro q hq hok
      exact absurd hok (errored_status hq)
  | refuse w t o st what stats hw =>
    exact hs.settle (by rw [hw]; rfl) hstep rfl rfl rfl rfl nofun nofun

end Workers

/-! ### One event -/

section Events

variable [DecidableEq W] {cfg : SweepConfig} {P : Str → Prop} {s : World W}

omit [DecidableEq W] in
theorem sound_tick (hs : Sound cfg P s) (d : ℕ) : Sound cfg P { s with now := s.now + d } :=
  sound_disk hs ⟨rfl, rfl, rfl, rfl, rfl, by simp, fun _ _ hf => .inl hf⟩

omit [DecidableEq W] in
/-- What is put on the disk now was last written now. -/
theorem sound_put (hs : Sound cfg P s) (q : Str) (c : Option FileOnDisk)
    (hc : ∀ f, c = some f → f.written = s.now) :
    Sound cfg P { s with disk := Function.update s.disk q c } := by
  refine sound_disk hs ⟨rfl, rfl, rfl, rfl, rfl, le_refl _, ?_⟩
  intro p f hf
  have hf' : Function.update s.disk q c p = some f := hf
  by_cases hp : p = q
  · rw [hp, Function.update_self] at hf'
    exact .inr (le_of_eq (hc f hf').symm)
  · rw [Function.update_of_ne hp] at hf'
    exact .inl hf'

theorem sound_begin (hs : Sound cfg P s) (store : StoreContext) :
    Sound cfg P (next cfg s (.begin store)) := by
  have htrace : (next cfg s (.begin store)).trace = s.trace := List.append_nil _
  refine ⟨?_, ?_, nofun, nofun, fun w hw => absurd rfl hw, ?_, fun w => trivial, ?_⟩
  · exact WorkPool.conserved_start []
  · exact WorkPool.apart_start List.nodup_nil
  · intro k r hr hk hok
    exact (hs.rows k r hr hk hok).congr rfl rfl (by rw [htrace])
  · rw [htrace]
    exact hs.faithful

theorem sound_offer (hs : Sound cfg P s) {p : Str} (hp : P p) (hnew : keyOf cfg p ∉ s.offered) :
    Sound cfg P (next cfg s (.offer p)) := by
  have hkeys : (next cfg s (.offer p)).keys cfg =
      { s.keys cfg with queue := (s.keys cfg).queue ++ [keyOf cfg p] } := by
    show (⟨(s.sweep.queue ++ [itemOf p]).map (Offer.key cfg), _, _⟩ : WorkPool.Pool W (ℕ × Str)) = _
    rw [List.map_append]
    rfl
  refine ⟨?_, ?_, ?_, hs.clocks, hs.started, ?_, ?_, hs.faithful⟩
  · rw [hkeys]
    exact WorkPool.conserved_push hs.conserved _
  · rw [hkeys]
    have hmem := hs.conserved (keyOf cfg p)
    refine WorkPool.apart_push hs.apart ?_ ?_
    · rintro k hk rfl
      refine hnew (hmem.mpr ?_)
      rcases List.mem_append.mp hk with hdone | hqueue
      · exact .inr (.inr hdone)
      · exact .inl hqueue
    · rintro w k hw rfl
      exact hnew (hmem.mpr (.inr (.inl ⟨w, hw⟩)))
  · intro o ho
    rcases List.mem_append.mp ho with ho | ho
    · exact hs.queued o ho
    · exact ⟨p, hp, List.mem_singleton.mp ho⟩
  · exact fun k r hr hk hok => (hs.rows k r hr hk hok).congr rfl rfl rfl
  · exact fun w => (hs.hands w).congr rfl rfl (fun _ _ => rfl) (fun _ _ => rfl)

/-- A worker reads a clock that shows what the disk's shows. -/
theorem sound_enter (hs : Sound cfg P s) (w : W) : Sound cfg P (next cfg s (.enter w)) := by
  unfold next
  dsimp only
  by_cases hw : (s.clock w).isSome = true
  · rw [if_pos hw]
    exact hs
  · rw [if_neg hw]
    refine ⟨hs.conserved, hs.apart, hs.queued, ?_, ?_, ?_, ?_, hs.faithful⟩
    · intro v c hc
      have hc' : Function.update s.clock w (some (seconds s.now)) v = some c := hc
      by_cases hv : v = w
      · rw [hv, Function.update_self] at hc'
        exact le_of_eq (Option.some.inj hc').symm
      · rw [Function.update_of_ne hv] at hc'
        exact hs.clocks v c hc'
    · intro v hbusy
      by_cases hv : v = w
      · rw [hv] at hbusy
        exact absurd (hs.started w hbusy) hw
      · show (Function.update s.clock w _ v).isSome = true
        rw [Function.update_of_ne hv]
        exact hs.started v hbusy
    · exact fun k r hr hk hok => (hs.rows k r hr hk hok).congr rfl rfl rfl
    · exact fun v => (hs.hands v).congr rfl rfl (fun _ _ => rfl) (fun _ _ => rfl)

/-- A worker sees more of the file it has in hand. -/
theorem Sound.see (hs : Sound cfg P s) {w : W} {h : Hand} {o q : Offer}
    (ho : (s.sweep.hands w).offer = some o) (hq : h.offer = some q) (hkey : q.key cfg = o.key cfg)
    (hhand : HandKept cfg P s true h) : Sound cfg P (s.see w h) := by
  have hstarted : (s.clock w).isSome = true := by
    refine hs.started w ?_
    intro hidle
    rw [hidle] at ho
    cases ho
  have hkeys : (s.see w h).keys cfg = s.keys cfg := by
    unfold World.keys World.see SweepState.pool SweepState.put WorkPool.Pool.map
    dsimp only
    congr 1
    funext v
    by_cases hv : v = w
    · rw [hv, Function.update_self, hq, ho]
      exact congrArg some hkey
    · rw [Function.update_of_ne hv]
  refine hs.hold (w := w) rfl rfl rfl rfl ?_ (fun o ho => ho)
    (fun v hv => Function.update_of_ne hv _ _) (fun v hv => Function.update_of_ne hv _ _) rfl
    (fun l => rfl) hstarted ?_
  · rw [hkeys]
    exact .stay _
  · have hl : (s.see w h).looked w = true := Function.update_self _ _ _
    have hh : (s.see w h).sweep.hands w = h := Function.update_self _ _ _
    rw [hl, hh]
    exact hhand.congr rfl rfl (fun _ _ => rfl) (fun _ _ => rfl)

omit [DecidableEq W] in
/-- A row that fits the file on the disk has its header stored. -/
theorem handKept_stat (hs : Sound cfg P s) {o : Offer} (hp : P o.relPath) :
    HandKept cfg P s true (.popped (statNow cfg s o)) := by
  refine ⟨hp, ?_, ?_⟩
  · intro st hst
    obtain ⟨f, hf, rfl⟩ := Option.map_eq_some_iff.mp hst
    exact wholeSecond_mtime f
  · intro _ st r hst hr hun
    obtain ⟨f, hf, rfl⟩ := Option.map_eq_some_iff.mp hst
    obtain ⟨hok, hsize, htime⟩ := unchanged_iff.mp hun
    obtain ⟨h, m, hlast, hm, -, hsame⟩ := hs.rows _ r hr rfl hok
    have hsec : wholeSecond m = seconds f.written := by
      rw [hm, wholeSecond_mtime] at htime
      exact Option.some.inj htime
    refine ⟨h, hlast, ?_⟩
    show headerNow cfg s o = .ok h
    unfold headerNow
    rw [hf]
    exact hsame o.relPath f hp rfl hf hsize hsec

omit [DecidableEq W] in
/-- What is read is the header of the file as it is from now on, or until a later second. -/
theorem handKept_read (happart : ∀ p q, P p → P q → keyOf cfg p = keyOf cfg q →
      foldPath cfg p = foldPath cfg q) {o : Offer} {st : FileStat} {known looked : Bool}
    (h : HandKept cfg P s looked (.store o st known)) :
    HandKept cfg P s true (.store { o with header := headerNow cfg s o } st known) := by
  obtain ⟨hp, hlt, hsec, -⟩ := h
  refine ⟨hp, hlt, hsec, ?_⟩
  intro _ p f hp' hkey hf _ _
  rw [happart p o.relPath hp' hp hkey] at hf
  show f.header = headerNow cfg s o
  unfold headerNow
  rw [hf]
  rfl

/-- A call for the file in hand has thrown. -/
theorem Sound.threw (hs : Sound cfg P s) {w : W} {o : Offer} {st : FileStat} {what : Str}
    (ho : (s.sweep.hands w).offer = some o) (hp : P o.relPath) :
    Sound cfg P { s with sweep := s.sweep.put w (.failed o st what) } := by
  have hstarted : (s.clock w).isSome = true := by
    refine hs.started w ?_
    intro hidle
    rw [hidle] at ho
    cases ho
  have hpool : (s.sweep.put w (.failed o st what)).pool = s.sweep.pool :=
    pool_hold rfl rfl rfl ho.symm
  refine hs.hold (w := w) rfl rfl rfl rfl ?_ (fun o ho => ho)
    (fun v hv => Function.update_of_ne hv _ _) (fun _ _ => rfl) rfl (fun l => rfl) hstarted ?_
  · show WorkPool.Step _ ((s.sweep.put w _).pool.map _)
    rw [hpool]
    exact .stay _
  · have hh : (s.sweep.put w (.failed o st what)).hands w = .failed o st what :=
      Function.update_self _ _ _
    show HandKept cfg P _ _ ((s.sweep.put w _).hands w)
    rw [hh]
    exact hp

theorem sound_fault (hs : Sound cfg P s) (w : W) (t : Micros) (what : Str) :
    Sound cfg P (faultNext s w t what) := by
  have hhand := hs.hands w
  unfold faultNext
  cases hw : s.sweep.hands w with
  | idle => exact hs
  | popped o =>
    rw [hw] at hhand
    dsimp only
    cases o.stat with
    | none => exact hs
    | some st => exact hs.threw (by rw [hw]; rfl) hhand.1
  | touch o id =>
    rw [hw] at hhand
    dsimp only
    cases o.stat with
    | none => exact hs
    | some st => exact hs.threw (by rw [hw]; rfl) hhand.1
  | store o st known =>
    rw [hw] at hhand
    exact hs.threw (by rw [hw]; rfl) hhand.1
  | failed o st what' =>
    have ho : (s.sweep.hands w).offer = some o := by
      rw [hw]
      rfl
    have hall : World.trace { s with sweep := s.sweep.finish w o (.refused t what) } =
        s.trace ++ [⟨w, o, .refused t what⟩] := (List.append_assoc _ _ _).symm
    have hpool : (s.sweep.finish w o (.refused t what)).pool = { s.sweep.pool with
        hand := Function.update s.sweep.pool.hand w none, done := s.sweep.pool.done ++ [o] } :=
      pool_finish (.refused t what) rfl rfl rfl
    refine hs.finish ho rfl rfl rfl rfl ?_ rfl rfl (fun _ _ => rfl) hall (fun _ _ => rfl) ?_ nofun
    · refine WorkPool.step_map (Offer.key cfg) (p := s.sweep.pool) ?_
      rw [hpool]
      exact .finish _ w o ho
    · intro r hr hok
      exact hs.kept_of_same (t := { s with sweep := s.sweep.finish w o (.refused t what) })
        rfl rfl hall nofun hr hok rfl rfl

omit [DecidableEq W] in
/-- Without a move the reconciliation leaves the rows that are `ok` as they were. -/
theorem reconcile_ok {db : IndexDb} {rootId prior : ℕ} {ss : Micros} {order : RowOrder}
    {moment : ℕ → Micros} (hstill : ∀ v a, ¬ Moved db rootId ss v a) {k : ℕ × Str} {r : FileRow}
    (hr : (reconcileRoot rootId ss prior order moment db).db.files.get k = some r)
    (hok : r.status = .ok) : db.files.get k = some r := by
  cases hguard : guardTrips prior (seenNow db rootId ss) with
  | true =>
    rw [reconcile_guarded order moment hguard] at hr
    exact hr
  | false =>
    obtain ⟨hmem, hkey⟩ := Table.get_eq_some_iff.mp hr
    obtain ⟨q, hq, -, hbecame⟩ := ((reconcile_spec order moment hguard).rows r).mp hmem
    cases hbecame with
    | kept => exact Table.get_eq_some_iff.mpr ⟨hq, hkey⟩
    | moved a ha => exact absurd ha (hstill q a)
    | missing => cases hok

theorem sound_reconcile (hs : Sound cfg P s) (hrest : s.AtRest) {ss : Micros} {prior : ℕ}
    {order : RowOrder} {moment : ℕ → Micros}
    (hstill : ∀ v a, ¬ Moved s.sweep.db cfg.rootId ss v a) :
    Sound cfg P (next cfg s (.reconcile ss prior order moment)) where
  conserved := hs.conserved
  apart := hs.apart
  queued := hs.queued
  clocks := hs.clocks
  started := hs.started
  rows k r hr hk hok := (hs.rows k r (reconcile_ok hstill hr hok) hk hok).congr rfl rfl rfl
  hands w := by
    show HandKept cfg P _ _ (s.sweep.hands w)
    rw [hrest.2 w]
    trivial
  faithful := hs.faithful

/-- What the walks yield is among `P`. -/
def Within (P : Str → Prop) : WorldEvent W → Prop
  | .offer p => P p
  | _ => True

theorem sound_next (hsettle : 1 ≤ cfg.settleSeconds)
    (happart : ∀ p q, P p → P q → keyOf cfg p = keyOf cfg q → foldPath cfg p = foldPath cfg q)
    (hs : Sound cfg P s) {e : WorldEvent W} (hin : Within P e) (he : Orderly cfg s e) :
    Sound cfg P (next cfg s e) := by
  cases e with
  | tick d => exact sound_tick hs d
  | write p size inode header =>
    refine sound_put hs _ _ ?_
    rintro f hf
    cases hf
    rfl
  | remove p => exact sound_put hs _ _ nofun
  | «begin» store => exact sound_begin hs store
  | offer p => exact sound_offer hs hin he
  | enter w => exact sound_enter hs w
  | stat w =>
    have hhand := hs.hands w
    unfold next
    dsimp only
    cases hw : s.sweep.hands w with
    | popped o =>
      rw [hw] at hhand
      exact hs.see (o := o) (by rw [hw]; rfl) rfl rfl (handKept_stat hs hhand.1)
    | idle | touch | store | failed => exact hs
  | read w =>
    have hhand := hs.hands w
    unfold next
    dsimp only
    cases hw : s.sweep.hands w with
    | store o st known =>
      rw [hw] at hhand
      exact hs.see (o := o) (by rw [hw]; rfl) rfl rfl (handKept_read happart hhand)
    | idle | popped | touch | failed => exact hs
  | work w t =>
    unfold next
    dsimp only
    by_cases hready : s.ready w = true
    · rw [if_pos hready]
      exact sound_work hsettle hs hready (next_move _ _ _ _)
    · rw [if_neg hready]
      exact hs
  | fault w t what => exact sound_fault hs w t what
  | stop =>
    refine ⟨hs.conserved, hs.apart, hs.queued, hs.clocks, hs.started, ?_, ?_, hs.faithful⟩
    · exact fun k r hr hk hok => (hs.rows k r hr hk hok).congr rfl rfl rfl
    · exact fun v => (hs.hands v).congr rfl rfl (fun _ _ => rfl) (fun _ _ => rfl)
  | reconcile ss prior order moment => exact sound_reconcile hs he.1 he.2

omit [DecidableEq W] in
theorem sound_fresh {db : IndexDb} (hrows : ∀ r ∈ db.files.rows, r.rootId ≠ cfg.rootId) (now : Int)
    (store : StoreContext) : Sound cfg P (fresh db now store : World W) where
  conserved := WorkPool.conserved_start []
  apart := WorkPool.apart_start List.nodup_nil
  queued := nofun
  clocks := nofun
  started w hw := absurd rfl hw
  rows k r hr hk _ := by
    obtain ⟨hmem, hkey⟩ := Table.get_eq_some_iff.mp hr
    refine absurd ?_ (hrows r hmem)
    rw [← hk, ← hkey]
    rfl
  hands w := trivial
  faithful := nofun

end Events

/-! ### Whole histories -/

/-- **A file skipped as unchanged has the header that is stored for it.**  A root that has no rows yet
and whose settle time is at least a second: whatever is written and removed, in whatever order with
the steps of the sweeps, the header of the file's content when a sweep looked at it is the one that
the last successful store was given. -/
theorem skipped_header [DecidableEq W] (cfg : SweepConfig) (hsettle : 1 ≤ cfg.settleSeconds)
    (db : IndexDb) (hrows : ∀ r ∈ db.files.rows, r.rootId ≠ cfg.rootId) (now : Int)
    (store : StoreContext) (events : List (WorldEvent W))
    (happart : ∀ p q, .offer p ∈ events → .offer q ∈ events →
      Host.md5 (foldPath cfg p) = Host.md5 (foldPath cfg q) → foldPath cfg p = foldPath cfg q)
    (horder : Run.Each (next cfg) (Orderly cfg) (fresh db now store) events) :
    Faithful cfg (events.foldl (next cfg) (fresh db now store)).trace := by
  have hin : Run.Each (next cfg) (fun _ e => Within (fun p => .offer p ∈ events) e)
      (fresh db now store) events := by
    refine Run.each_of_mem ?_
    intro e he _
    cases e with
    | offer p => exact he
    | _ => trivial
  have hall := Run.always_of_each
    (P := Sound cfg fun p => WorldEvent.offer p ∈ events)
    (fun s e hs he => sound_next hsettle (fun p q hp hq hkey => happart p q hp hq
      (congrArg Prod.snd hkey)) hs he.1 he.2)
    (sound_fresh hrows now store) (hin.and horder)
  exact hall.last.faithful

end Machine

/-! ### A file written once and swept twice -/

section Twice

attribute [local instance] plainHost

def onceSweep : SweepConfig where
  rootId := 1
  caseSensitive := true
  settleSeconds := 5
  store := ⟨HeaderMapping.defaults, {}, {}⟩
  sessionOffset := 0

/-- A worker starts, takes the file that is offered, looks at it and does what it finds to do. -/
def visit (t : Micros) : List (WorldEvent Unit) :=
  [.begin onceSweep.store, .offer "a.fits".toList, .enter (), .work () t, .stat (), .work () t,
    .read (), .work () t]

/-- The file is a minute old when it is swept, and swept again a minute later. -/
def sweptTwice : List (WorldEvent Unit) :=
  [.write "a.fits".toList 2880 1 (.ok ⟨[], List.nodup_nil⟩), .tick 60000000000] ++ visit 60000000 ++
    [.tick 60000000000] ++ visit 120000000

/-- The second sweep skips it. -/
theorem skipped_header_twice :
    (sweptTwice.foldl (next onceSweep) (fresh (IndexDb.blank {}) 0 onceSweep.store)).trace.map
        Entry.outcome = [.stored 60000000, .touched 120000000] ∧
      Faithful onceSweep
        (sweptTwice.foldl (next onceSweep) (fresh (IndexDb.blank {}) 0 onceSweep.store)).trace := by
  refine ⟨by decide, ?_⟩
  refine skipped_header onceSweep (by decide) (IndexDb.blank {}) (by decide) 0 onceSweep.store
    sweptTwice ?_ ?_
  · intro p q _ _ he
    exact he
  · exact ⟨trivial, trivial, trivial, List.not_mem_nil, trivial, trivial, trivial, trivial, trivial,
      trivial, trivial, trivial, List.not_mem_nil, trivial, trivial, trivial, trivial, trivial,
      trivial, trivial⟩

end Twice

end StarBase.Scan.History
