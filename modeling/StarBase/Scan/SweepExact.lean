import StarBase.Scan.SweepSpec

/-!
# What a sweep leaves when no two files share a path key

* `Effect` — what one outcome made of one file's row and frames, measured against the database the
  sweep began with;
* `Exact`, `exact_sweep` — **PROVED**: in every state of every sweep each file that is done had its
  effect, and every other row and every other file's frames are as they were.
-/

namespace StarBase.Scan

open Relational Extract

section Machine

variable [Host] {W : Type}

/-! ### Effects -/

/-- Why a file ended in an error: its header could not be read, or could not be stored. -/
def Unstorable (cfg : SweepConfig) (o : Offer) (st : FileStat) (what : Str) : Prop :=
  o.header = .error what ∨ ∃ header t s e s', o.header = .ok header ∧
    storeFile cfg.store t (o.info cfg st) header s = (.error e, s') ∧ what = Thrown.what e

/-- What became of the file `o` between `db` and `d`, under a worker with the clock `now`. -/
inductive Effect (cfg : SweepConfig) (now : Int) (db d : IndexDb) (o : Offer) : Outcome → Prop
  | dropped : d.files.get (o.key cfg) = db.files.get (o.key cfg) → Effect cfg now db d o .dropped
  | gone : o.stat = none → d.files.get (o.key cfg) = db.files.get (o.key cfg) →
      Effect cfg now db d o .gone
  | settling (st : FileStat) : o.stat = some st → unsettled cfg now st = true →
      d.files.get (o.key cfg) = db.files.get (o.key cfg) → Effect cfg now db d o .settling
  | touched (t : Micros) (st : FileStat) (r : FileRow) : o.stat = some st →
      unsettled cfg now st = false → db.files.get (o.key cfg) = some r → unchanged r st = true →
      d.files.get (o.key cfg) = some ((touchRow t).apply r) → Effect cfg now db d o (.touched t)
  | stored (t : Micros) (st : FileStat) (header : RawHeader) (i : ℕ) : o.stat = some st →
      unsettled cfg now st = false → o.header = .ok header →
      (∀ r, db.files.get (o.key cfg) = some r → unchanged r st = false) →
      db.files.next ≤ i →
      d.files.get (o.key cfg)
        = some ((o.info cfg st).storedOver t i (db.files.get (o.key cfg))) →
      FileStored cfg.store header.imageHdus
        ((o.info cfg st).storedOver t i (db.files.get (o.key cfg))).id db d →
      Effect cfg now db d o (.stored t)
  | failed (t : Micros) (what : Str) (st : FileStat) (i : ℕ) : o.stat = some st →
      unsettled cfg now st = false → Unstorable cfg o st what →
      (∀ r, db.files.get (o.key cfg) = some r → unchanged r st = false) →
      db.files.next ≤ i →
      d.files.get (o.key cfg) = some (o.erroredOver cfg st what t i (db.files.get (o.key cfg))) →
      Effect cfg now db d o (.failed t what)
  | refused (t : Micros) (what : Str) :
      d.files.get (o.key cfg) = db.files.get (o.key cfg) →
      Effect cfg now db d o (.refused t what)

/-- An effect stays when later writes leave the file's row and frames alone. -/
theorem Effect.mono {cfg : SweepConfig} {now : Int} {db d d' : IndexDb} {o : Offer} {out : Outcome}
    (h : Effect cfg now db d o out)
    (hrow : d'.files.get (o.key cfg) = d.files.get (o.key cfg))
    (hframes : ∀ r, d.files.get (o.key cfg) = some r → FramesKept r.id d d') :
    Effect cfg now db d' o out := by
  cases h with
  | dropped h => exact .dropped (hrow.trans h)
  | gone hst h => exact .gone hst (hrow.trans h)
  | settling st hst hu h => exact .settling st hst hu (hrow.trans h)
  | touched t st r hst hu hr hun h => exact .touched t st r hst hu hr hun (hrow.trans h)
  | stored t st header i hst hu hh hr hi h hfs =>
    refine .stored t st header i hst hu hh hr hi (hrow.trans h) ?_
    exact FileStored.between (FramesKept.refl _ db) (le_refl _) hfs (hframes _ h)
  | failed t what st i hst hu hw hr hi h => exact .failed t what st i hst hu hw hr hi (hrow.trans h)
  | refused t what h => exact .refused t what (hrow.trans h)

/-- What a worker knows of the file it is busy with, from the database the sweep began with. -/
def HandExact (cfg : SweepConfig) (now : Int) (db : IndexDb) : Hand → Prop
  | .idle => True
  | .popped _ => True
  | .touch o id => ∃ st r, o.stat = some st ∧ unsettled cfg now st = false ∧
      db.files.get (o.key cfg) = some r ∧ r.id = id ∧ unchanged r st = true
  | .store o st known => o.stat = some st ∧ unsettled cfg now st = false ∧
      (∀ r, db.files.get (o.key cfg) = some r → unchanged r st = false) ∧
      known = (db.files.get (o.key cfg)).isSome
  | .failed o st what => o.stat = some st ∧ unsettled cfg now st = false ∧
      (∀ r, db.files.get (o.key cfg) = some r → unchanged r st = false) ∧
      Unstorable cfg o st what

theorem handExact_plan {cfg : SweepConfig} {now : Int} {db d : IndexDb} {o : Offer} {st : FileStat}
    (hst : o.stat = some st) (hu : unsettled cfg now st = false)
    (hrow : d.files.get (o.key cfg) = db.files.get (o.key cfg)) :
    HandExact cfg now db (plan cfg d o st) := by
  unfold plan
  rw [hrow]
  cases hr : db.files.get (o.key cfg) with
  | none => exact ⟨hst, hu, by simp [hr], by simp [hr]⟩
  | some r =>
    dsimp only
    by_cases hun : unchanged r st = true
    · rw [if_pos hun]
      exact ⟨st, r, hst, hu, hr, rfl, hun⟩
    · rw [if_neg hun]
      refine ⟨hst, hu, fun q hq => ?_, by simp [hr]⟩
      rw [hr] at hq
      cases hq
      simpa using hun

/-! ### The invariant -/

/-- The id of a file that a sweep stored. -/
def StoredId (cfg : SweepConfig) (s : SweepState W) (i : ℕ) : Prop :=
  ∃ e ∈ s.trace, ∃ t r, e.outcome = .stored t ∧ s.db.files.get (e.offer.key cfg) = some r ∧ r.id = i

structure Exact (cfg : SweepConfig) (clock : W → Int) (db : IndexDb) (s : SweepState W) : Prop where
  apart : WorkPool.Apart (Offer.key cfg) s.pool
  fresh : ∀ k, (∀ e ∈ s.trace, e.offer.key cfg ≠ k) → s.db.files.get k = db.files.get k
  effects : ∀ e ∈ s.trace, Effect cfg (clock e.worker) db s.db e.offer e.outcome
  hands : ∀ w, HandExact cfg (clock w) db (s.hands w)
  frames : ∀ i, ¬ StoredId cfg s i → FramesKept i db s.db
  filesNext : db.files.next ≤ s.db.files.next
  framesNext : db.frames.next ≤ s.db.frames.next

theorem exact_start {cfg : SweepConfig} {clock : W → Int} {db : IndexDb} {offers : List Offer}
    (h : (offers.map (Offer.key cfg)).Nodup) : Exact cfg clock db (start (W := W) offers db) where
  apart := WorkPool.apart_start h
  fresh _ _ := rfl
  effects := by simp [start]
  hands _ := trivial
  frames i _ := FramesKept.refl i db
  filesNext := le_refl _
  framesNext := le_refl _

variable [DecidableEq W]

omit [DecidableEq W] in
/-- The file in a worker's hand is not among those that are done. -/
theorem Exact.hand_fresh {cfg : SweepConfig} {clock : W → Int} {db : IndexDb} {s : SweepState W}
    (h : Exact cfg clock db s) {w : W} {o : Offer} (ho : (s.hands w).offer = some o) :
    ∀ e ∈ s.trace, e.offer.key cfg ≠ o.key cfg := by
  intro e he hk
  exact h.apart.fresh w o ho e.offer
    (List.mem_append_left _ (List.mem_map_of_mem he)) hk.symm

omit [DecidableEq W] in
/-- Its row is as it was when the sweep began. -/
theorem Exact.hand_row {cfg : SweepConfig} {clock : W → Int} {db : IndexDb} {s : SweepState W}
    (h : Exact cfg clock db s) {w : W} {o : Offer} (ho : (s.hands w).offer = some o) :
    s.db.files.get (o.key cfg) = db.files.get (o.key cfg) :=
  h.fresh _ (h.hand_fresh ho)

/-- A worker's step that finishes no file and changes no row. -/
theorem Exact.hold {cfg : SweepConfig} {clock : W → Int} {db : IndexDb} {s s' : SweepState W}
    (h : Exact cfg clock db s) {w : W} (hand : Hand) (hpool : WorkPool.Step s.pool s'.pool)
    (hh : s'.hands = Function.update s.hands w hand) (ht : s'.trace = s.trace)
    (hrows : ∀ k, s'.db.files.get k = s.db.files.get k)
    (hframes : ∀ i, FramesKept i s.db s'.db) (hn : s.db.files.next ≤ s'.db.files.next)
    (hfn : s.db.frames.next ≤ s'.db.frames.next) (hhand : HandExact cfg (clock w) db hand) :
    Exact cfg clock db s' where
  apart := WorkPool.apart_step h.apart hpool
  fresh k hk := by
    rw [ht] at hk
    rw [hrows k, h.fresh k hk]
  effects e he := by
    rw [ht] at he
    exact (h.effects e he).mono (hrows _) fun r _ => hframes r.id
  hands v := by
    rw [hh]
    by_cases hv : v = w
    · rw [hv, Function.update_self]
      exact hhand
    · rw [Function.update_of_ne hv]
      exact h.hands v
  frames i hi := by
    refine (h.frames i fun hs => hi ?_).trans (hframes i)
    obtain ⟨e, he, t, r, hout, hr, hid⟩ := hs
    exact ⟨e, ht ▸ he, t, r, hout, (hrows _).trans hr, hid⟩
  filesNext := le_trans h.filesNext hn
  framesNext := le_trans h.framesNext hfn

/-- A worker's step that finishes the file `o`: it writes the row of `o` only, and frames only when
it stores the file. -/
theorem Exact.finish {cfg : SweepConfig} {clock : W → Int} {db : IndexDb} {s s' : SweepState W}
    (h : Exact cfg clock db s) {w : W} {o : Offer} (out : Outcome)
    (hpool : WorkPool.Step s.pool s'.pool) (ho : (s.hands w).offer = some o)
    (hh : s'.hands = Function.update s.hands w .idle) (ht : s'.trace = s.trace ++ [⟨w, o, out⟩])
    (hothers : ∀ k, k ≠ o.key cfg → s'.db.files.get k = s.db.files.get k)
    (heffect : Effect cfg (clock w) db s'.db o out)
    (hframes : ∀ i, (∀ t r, out = .stored t → s'.db.files.get (o.key cfg) = some r → r.id ≠ i) →
      FramesKept i s.db s'.db)
    (hn : s.db.files.next ≤ s'.db.files.next) (hfn : s.db.frames.next ≤ s'.db.frames.next) :
    Exact cfg clock db s' := by
  have hfresh := h.hand_fresh ho
  refine ⟨WorkPool.apart_step h.apart hpool, ?_, ?_, ?_, ?_, le_trans h.filesNext hn,
    le_trans h.framesNext hfn⟩
  · intro k hk
    rw [ht] at hk
    have hko : k ≠ o.key cfg := fun he => hk ⟨w, o, out⟩ (by simp) he.symm
    rw [hothers k hko]
    exact h.fresh k fun e he => hk e (List.mem_append_left _ he)
  · intro e he
    rw [ht, List.mem_append, List.mem_singleton] at he
    rcases he with he | rfl
    · refine (h.effects e he).mono (hothers _ (hfresh e he)) fun r hr => hframes r.id ?_
      intro t q hout hq hid
      have hr' : s'.db.files.get (e.offer.key cfg) = some r := (hothers _ (hfresh e he)).trans hr
      exact hfresh e he (Table.key_eq_of_id hr' hq hid.symm)
    · exact heffect
  · intro v
    rw [hh]
    by_cases hv : v = w
    · rw [hv, Function.update_self]
      trivial
    · rw [Function.update_of_ne hv]
      exact h.hands v
  · intro i hi
    refine (h.frames i fun hs => hi ?_).trans (hframes i fun t r hout hr hid => hi ?_)
    · obtain ⟨e, he, t, r, hout, hr, hid⟩ := hs
      refine ⟨e, ?_, t, r, hout, (hothers _ (hfresh e he)).trans hr, hid⟩
      rw [ht]
      exact List.mem_append_left _ he
    · exact ⟨⟨w, o, out⟩, by simp [ht], t, r, hout, hr, hid⟩

omit [DecidableEq W] in
/-- The frames of the file a worker is about to store are as they were when the sweep began. -/
theorem Exact.hand_frames {cfg : SweepConfig} {clock : W → Int} {db : IndexDb} {s : SweepState W}
    (h : Exact cfg clock db s) {w : W} {o : Offer} (ho : (s.hands w).offer = some o)
    (info : FileInfo) (t : Micros) :
    FramesKept (info.storedOver t s.db.files.next (s.db.files.get (o.key cfg))).id db s.db := by
  refine h.frames _ fun hs => ?_
  obtain ⟨e, he, t', r, -, hr, hid⟩ := hs
  cases hq : s.db.files.get (o.key cfg) with
  | none =>
    rw [hq] at hid
    have hlt := Table.get_id_lt hr
    have hid' : r.id = s.db.files.next := hid
    exact absurd hlt (by show ¬ r.id < _; omega)
  | some q =>
    rw [hq] at hid
    exact h.hand_fresh ho e he (Table.key_eq_of_id hr hq hid)

/-- **One event keeps the invariant.** -/
theorem exact_move {cfg : SweepConfig} {clock : W → Int} {db : IndexDb} {s s' : SweepState W}
    {e : Event W} (h : Exact cfg clock db s) (hm : Move cfg clock s e s') :
    Exact cfg clock db s' := by
  have hpool := move_pool hm
  have hsame : ∀ i, FramesKept i s.db s.db := fun i => FramesKept.refl i s.db
  cases hm with
  | stop => exact ⟨h.apart, h.fresh, h.effects, h.hands, h.frames, h.filesNext, h.framesNext⟩
  | starve => exact h
  | take w t o rest hw hq =>
    exact h.hold _ hpool rfl rfl (fun _ => rfl) hsame (le_refl _) (le_refl _) trivial
  | drop w t o hw hstop =>
    have ho : (s.hands w).offer = some o := by rw [hw]; rfl
    exact h.finish .dropped hpool ho rfl rfl (fun _ _ => rfl) (.dropped (h.hand_row ho))
      (fun i _ => hsame i) (le_refl _) (le_refl _)
  | gone w t o hw hrun hst =>
    have ho : (s.hands w).offer = some o := by rw [hw]; rfl
    exact h.finish .gone hpool ho rfl rfl (fun _ _ => rfl) (.gone hst (h.hand_row ho))
      (fun i _ => hsame i) (le_refl _) (le_refl _)
  | settling w t o st stats hw hrun hst hu =>
    have ho : (s.hands w).offer = some o := by rw [hw]; rfl
    exact h.finish .settling hpool ho rfl rfl (fun _ _ => rfl)
      (.settling st hst hu (h.hand_row ho)) (fun i _ => hsame i) (le_refl _) (le_refl _)
  | plan w t o st stats hw hrun hst hu =>
    have ho : (s.hands w).offer = some o := by rw [hw]; rfl
    exact h.hold _ hpool rfl rfl (fun _ => rfl) hsame (le_refl _) (le_refl _)
      (handExact_plan hst hu (h.hand_row ho))
  | touch w t o id stats hw =>
    have ho : (s.hands w).offer = some o := by rw [hw]; rfl
    have hhand := h.hands w
    rw [hw] at hhand
    obtain ⟨st, r, hst, hu, hr, rfl, hun⟩ := hhand
    have hrs : s.db.files.get (o.key cfg) = some r := (h.hand_row ho).trans hr
    refine h.finish (.touched t) hpool ho rfl rfl ?_ ?_ ?_ (le_refl _) (le_refl _)
    · intro k hk
      show (touchDb s.db r.id t).files.get k = _
      rw [touchDb_get hrs, if_neg hk]
    · refine .touched t st r hst hu hr hun ?_
      show (touchDb s.db r.id t).files.get _ = _
      rw [touchDb_get hrs, if_pos rfl]
    · exact fun i _ => framesKept_of_eq rfl rfl
  | store w t o st known header r stats hw hh hs =>
    have ho : (s.hands w).offer = some o := by rw [hw]; rfl
    have hhand := h.hands w
    rw [hw] at hhand
    obtain ⟨hst, hu, hun, -⟩ := hhand
    obtain ⟨hfiles, hstored, -, hnext⟩ := storeFile_ok hs
    have hrow := h.hand_row ho
    have hget : r.db.files.get (o.key cfg)
        = some ((o.info cfg st).storedOver t s.db.files.next (s.db.files.get (o.key cfg))) := by
      rw [hfiles]
      exact Table.get_upsert_self
    refine h.finish (.stored t) hpool ho rfl rfl ?_ ?_ ?_ ?_ hnext
    · intro k hk
      show r.db.files.get k = _
      rw [hfiles]
      exact Table.get_upsert_ne hk
    · have hframes := h.hand_frames ho (o.info cfg st) t
      have hfs := FileStored.between hframes h.framesNext hstored.toFileStored
        (FramesKept.refl _ r.db)
      rw [hrow] at hget hfs
      exact .stored t st header s.db.files.next hst hu hh hun h.filesNext hget hfs
    · intro i hi
      refine hstored.others i ?_
      exact (hi t _ rfl hget).symm
    · show s.db.files.next ≤ r.db.files.next
      rw [hfiles, Table.upsert_next]
      exact Nat.le_succ _
  | unread w t o st known what hw hh =>
    have hhand := h.hands w
    rw [hw] at hhand
    obtain ⟨hst, hu, hun, -⟩ := hhand
    exact h.hold _ hpool rfl rfl (fun _ => rfl) hsame (le_refl _) (le_refl _)
      ⟨hst, hu, hun, Or.inl hh⟩
  | rollback w t o st known header e r hw hh hs =>
    have hhand := h.hands w
    rw [hw] at hhand
    obtain ⟨hst, hu, hun, -⟩ := hhand
    obtain ⟨u, hru⟩ := storeFile_error hs
    have hdb : r.db = s.db.rollback u := hru
    refine h.hold (.failed o st (Thrown.what e)) hpool rfl rfl ?_ ?_ ?_ ?_
      ⟨hst, hu, hun, Or.inr ⟨header, t, _, e, r, hh, hs, rfl⟩⟩
    · intro k
      show r.db.files.get k = _
      rw [hdb]
      rfl
    · intro i
      show FramesKept i s.db r.db
      rw [hdb]
      exact ⟨fun _ => rfl, fun _ _ _ => rfl⟩
    · show _ ≤ r.db.files.next
      rw [hdb]
      exact Nat.le_max_left _ _
    · show _ ≤ r.db.frames.next
      rw [hdb]
      exact Nat.le_max_left _ _
  | error w t o st what stats hw ha =>
    have ho : (s.hands w).offer = some o := by rw [hw]; rfl
    have hhand := h.hands w
    rw [hw] at hhand
    obtain ⟨hst, hu, hun, hwhat⟩ := hhand
    refine h.finish (.failed t what) hpool ho rfl rfl (fun k hk => Table.get_upsert_ne hk) ?_
      (fun i _ => framesKept_of_eq rfl rfl) ?_ (le_refl _)
    · have hget : (errorDb cfg s.db o st what t).files.get (o.key cfg) = some
          (o.erroredOver cfg st what t s.db.files.next (s.db.files.get (o.key cfg))) :=
        Table.get_upsert_self
      rw [h.hand_row ho] at hget
      exact .failed t what st s.db.files.next hst hu hwhat hun h.filesNext hget
    · show _ ≤ (s.db.files.upsert _ _ _).next
      rw [Table.upsert_next]
      exact Nat.le_succ _
  | refuse w t o st what stats hw =>
    have ho : (s.hands w).offer = some o := by rw [hw]; rfl
    exact h.finish (.refused t what) hpool ho rfl rfl (fun _ _ => rfl)
      (.refused t what (h.hand_row ho)) (fun i _ => hsame i) (le_refl _) (le_refl _)

/-- **The sweep, file by file.** -/
theorem exact_sweep {cfg : SweepConfig} {clock : W → Int} {ss : Micros} {db : IndexDb}
    {offers : List Offer} {events : List (Event W)} (hnd : (offers.map (Offer.key cfg)).Nodup)
    (hafter : AllAfter ss events) :
    Exact cfg clock db (sweep cfg clock (start offers db) events) :=
  sweep_induct (P := Exact cfg clock db) (fun _ _ _ _ hm h => exact_move h hm) hafter
    (exact_start hnd)

theorem added_move {cfg : SweepConfig} {clock : W → Int} {db : IndexDb} {offers : List Offer}
    (hknown : ∀ o ∈ offers, (db.files.get (o.key cfg)).isSome = true) {s s' : SweepState W}
    {e : Event W} (h : Exact cfg clock db s) (hc : WorkPool.Conserved offers s.pool)
    (hadded : s.stats.added = 0) (hm : Move cfg clock s e s') : s'.stats.added = 0 := by
  cases hm with
  | stop => exact hadded
  | starve => exact hadded
  | take => exact hadded
  | drop => exact hadded
  | gone => exact hadded
  | settling w t o st stats hw hrun hst hu hs => exact hs.trans hadded
  | plan w t o st stats hw hrun hst hu hs => exact hs.trans hadded
  | touch w t o id stats hw hs => exact hs.trans hadded
  | store w t o st known header r stats hw hh hs hst =>
    have hhand := h.hands w
    rw [hw] at hhand
    have ho : (s.hands w).offer = some o := by rw [hw]; rfl
    have hmem : o ∈ offers := (hc o).mpr (Or.inr (Or.inl ⟨w, ho⟩))
    have hk : known = true := hhand.2.2.2.trans (hknown o hmem)
    show stats.added = 0
    rw [hst, hk, if_pos rfl, hadded]
  | unread => exact hadded
  | rollback => exact hadded
  | error w t o st what stats hw ha hs => exact hs.trans hadded
  | refuse w t o st what stats hw hs => exact hs.trans hadded

/-- A sweep of files that all have a row adds none. -/
theorem added_eq_zero {cfg : SweepConfig} {clock : W → Int} {ss : Micros} {db : IndexDb}
    {offers : List Offer} {events : List (Event W)} (hnd : (offers.map (Offer.key cfg)).Nodup)
    (hafter : AllAfter ss events)
    (hknown : ∀ o ∈ offers, (db.files.get (o.key cfg)).isSome = true) :
    (sweep cfg clock (start offers db) events).stats.added = 0 := by
  have hrun := sweep_induct
    (P := fun s : SweepState W =>
      Exact cfg clock db s ∧ WorkPool.Conserved offers s.pool ∧ s.stats.added = 0)
    (fun _ _ _ _ hm h => ⟨exact_move h.1 hm, WorkPool.conserved_step h.2.1 (move_pool hm),
      added_move hknown h.1 h.2.1 h.2.2 hm⟩) hafter
    ⟨exact_start hnd, WorkPool.conserved_start offers, rfl⟩
  exact hrun.2.2

end Machine

end StarBase.Scan
