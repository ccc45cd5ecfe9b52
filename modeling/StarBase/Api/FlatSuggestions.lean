import StarBase.Api.Equipment
import StarBase.Lib.Clusters
import StarBase.Query.Browse

/-!
# Flat-set suggestions

The flats without a set are read by rig, filter and time, and cut into clusters in one pass.

* `unassigned`, `flatRow`, `suggestFlats` — the query and the loop;
* `suggestFlats_eq` — **PROVED**: the loop returns the runs of the rows;
* `suggestFlats_partition` — **PROVED**: the clusters partition the flats.

How the server reads a date, and `UNIX_TIMESTAMP`, are parameters.
-/

namespace StarBase.Api

open Relational Extract Clusters

section Server

variable [Host]

/-! ### The query -/

/-- What the loop reads of a row. -/
structure FlatRow where
  rigId : Option ℕ
  rig : Option Str
  dateObsUtc : Option Str
  sessionNight : Option Str
  filter : Option Str
  epoch : Option Int
  filterId : Option ℕ

/-- `image_type = 'flat' AND flat_set_id IS NULL AND rig_id IS NOT NULL AND date_obs_utc IS NOT
NULL`. -/
def unassigned (f : FrameRow) : Bool :=
  f.cols.imageType = .flat && f.flatSetId = none && f.equip.rigId.isSome && f.cols.dateObsUtc.isSome

/-- The instant the server reads in `date_obs_utc`. -/
def obsInstant (instant : Str → Option Micros) (f : FrameRow) : Option Micros :=
  f.cols.dateObsUtc.bind instant

def wholeSeconds (t : Micros) : Int := t / 1000000

/-- What the server knows: the instants its texts stand for, `UNIX_TIMESTAMP` as the whole seconds
`std::stoll` leaves of it, and the names in `filters`. -/
structure FlatServer where
  instant : Str → Option Micros
  unixTimestamp : Micros → Option Int
  unix_whole : ∀ t, 0 ≤ t → unixTimestamp t = some (wholeSeconds t)
  filterName : ℕ → Option Str

/-- A frame joined with its rig and its filter. -/
def flatRow (sv : FlatServer) (db : EquipDb) (f : FrameRow) : Option FlatRow :=
  (db.rigs.rows.find? fun r => f.equip.rigId = some r.id).map fun r =>
    { rigId := f.equip.rigId
      rig := some r.name
      dateObsUtc := f.cols.dateObsUtc
      sessionNight := f.cols.sessionNight
      filter := (f.equip.filterId.bind sv.filterName).or f.cols.filterRaw
      epoch := (obsInstant sv.instant f).bind sv.unixTimestamp
      filterId := f.equip.filterId }

/-- The rig and `COALESCE(filter_id, 0)`. -/
def rigAndFilter (f : FrameRow) : ℕ ×ₗ ℕ := toLex (f.equip.rigId.getD 0, f.equip.filterId.getD 0)

/-- `ORDER BY f.rig_id, COALESCE(f.filter_id, 0), f.date_obs_utc`. -/
def beforeFlat (instant : Str → Option Micros) : FrameRow → FrameRow → Prop :=
  InOrder rigAndFilter fun f => (obsInstant instant f).getD 0

instance (instant : Str → Option Micros) : DecidableRel (beforeFlat instant) :=
  inferInstanceAs (DecidableRel (InOrder _ _))

/-! ### The loop -/

structure Cluster where
  rigId : ℕ
  rig : Str
  filterId : Option ℕ
  filter : Str
  startUtc : Str
  endUtc : Str
  sessionNight : Option Str
  frames : ℕ
  deriving DecidableEq

/-- The variables of the loop: −1 stands for no filter, −2 for none yet. -/
structure Clustering where
  out : List Cluster := []
  cur : Option Cluster := none
  curRig : Int := -1
  curFid : Int := -2
  lastEpoch : Int := 0

def Clustering.flush (st : Clustering) : List Cluster := st.out ++ st.cur.toList

def fidOfRow (r : FlatRow) : Int := (r.filterId.map Int.ofNat).getD (-1)

/-- The condition under which the loop begins a cluster. -/
abbrev Opens (gapS : Int) (st : Clustering) (rig : ℕ) (fid epoch : Int) : Prop :=
  st.cur.isNone ∨ (rig : Int) ≠ st.curRig ∨ fid ≠ st.curFid ∨ gapS < epoch - st.lastEpoch

/-- A cluster is flushed and another begun. -/
def Clustering.open (st : Clustering) (r : FlatRow) (rig : ℕ) (date : Str) : Clustering :=
  { st with
    out := st.flush
    cur := some
      { rigId := rig
        rig := r.rig.getD []
        filterId := r.filterId
        filter := r.filter.getD []
        startUtc := date
        endUtc := date
        sessionNight := r.sessionNight
        frames := 0 }
    curRig := rig
    curFid := fidOfRow r }

/-- The row is counted in the current cluster. -/
def Clustering.add (st : Clustering) (date : Str) (epoch : Int) : Clustering :=
  { st with
    cur := st.cur.map fun c => { c with endUtc := date, frames := c.frames + 1 }
    lastEpoch := epoch }

def suggestStep (gapS : Int) (st : Clustering) (r : FlatRow) : Clustering :=
  match r.rigId, r.dateObsUtc, r.epoch with
  | some rig, some date, some epoch =>
    (if Opens gapS st rig (fidOfRow r) epoch then st.open r rig date else st).add date epoch
  | _, _, _ => st

/-- `gap_minutes`, in seconds. -/
def gapSeconds (param : Option Str) : Int := Query.qint param 45 1 100000 * 60

/-- The clusters of the rows in the order the server returns them. -/
def suggestFlats (gapS : Int) (rows : List FlatRow) : List Cluster :=
  (rows.foldl (suggestStep gapS) {}).flush

/-! ### The runs -/

/-- The second of a frame's date. -/
def obsSecond (instant : Str → Option Micros) (f : FrameRow) : Int :=
  wholeSeconds ((obsInstant instant f).getD 0)

/-- One rig and filter, and at most the gap between the seconds. -/
def sameSet (instant : Str → Option Micros) (gapS : Int) : FrameRow → FrameRow → Bool :=
  near rigAndFilter (obsSecond instant) gapS

/-- A frame the query returns, with a date from 1970 on and a filter id the server has given. -/
structure Readable (instant : Str → Option Micros) (db : EquipDb) (f : FrameRow) : Prop where
  flat : unassigned f = true
  dated : ∃ t, obsInstant instant f = some t ∧ 0 ≤ t
  filter : f.equip.filterId ≠ some 0
  rig : ∀ i ∈ f.equip.rigId, i ∈ db.rigs.ids

/-- A cluster's row tells what its members are. -/
structure Summary (c : Cluster) (g : List FrameRow) : Prop where
  frames : c.frames = g.length
  rig : ∀ f ∈ g, f.equip.rigId = some c.rigId
  filter : ∀ f ∈ g, f.equip.filterId = c.filterId
  start : ∀ f ∈ g.head?, f.cols.dateObsUtc = some c.startUtc
  stop : ∀ f ∈ g.getLast?, f.cols.dateObsUtc = some c.endUtc

/-- The number of a filter to the loop. -/
def fidOf (f : FrameRow) : Int := (f.equip.filterId.map Int.ofNat).getD (-1)

omit [Host] in
theorem fidOf_inj {a b : FrameRow} (h : fidOf a = fidOf b) : a.equip.filterId = b.equip.filterId := by
  unfold fidOf at h
  cases ha : a.equip.filterId with
  | none =>
    cases hb : b.equip.filterId with
    | none => rfl
    | some j =>
      rw [ha, hb] at h
      change (-1 : Int) = (j : Int) at h
      omega
  | some i =>
    cases hb : b.equip.filterId with
    | none =>
      rw [ha, hb] at h
      change (i : Int) = (-1 : Int) at h
      omega
    | some j =>
      rw [ha, hb] at h
      exact congrArg some (Int.ofNat.inj h)

omit [Host] in
theorem rigAndFilter_eq_iff {a b : FrameRow} {i j : ℕ} (hi : a.equip.rigId = some i)
    (hj : b.equip.rigId = some j) (ha : a.equip.filterId ≠ some 0) (hb : b.equip.filterId ≠ some 0) :
    rigAndFilter a = rigAndFilter b ↔ i = j ∧ a.equip.filterId = b.equip.filterId := by
  unfold rigAndFilter
  rw [hi, hj, EmbeddingLike.apply_eq_iff_eq, Prod.mk.injEq]
  refine and_congr Iff.rfl ⟨fun h => ?_, fun h => by rw [h]⟩
  cases hfa : a.equip.filterId with
  | none =>
    cases hfb : b.equip.filterId with
    | none => rfl
    | some k =>
      rw [hfa, hfb] at h
      exact absurd (hfb.trans (congrArg some h.symm)) hb
  | some k =>
    cases hfb : b.equip.filterId with
    | none =>
      rw [hfa, hfb] at h
      exact absurd (hfa.trans (congrArg some h)) ha
    | some m =>
      rw [hfa, hfb] at h
      exact congrArg some h

theorem Readable.rigId {instant : Str → Option Micros} {db : EquipDb} {f : FrameRow}
    (h : Readable instant db f) : ∃ i, f.equip.rigId = some i := by
  have hflat := h.flat
  unfold unassigned at hflat
  simp only [Bool.and_eq_true] at hflat
  exact Option.isSome_iff_exists.mp hflat.1.2

theorem Readable.date {instant : Str → Option Micros} {db : EquipDb} {f : FrameRow}
    (h : Readable instant db f) : ∃ date, f.cols.dateObsUtc = some date := by
  have hflat := h.flat
  unfold unassigned at hflat
  simp only [Bool.and_eq_true] at hflat
  exact Option.isSome_iff_exists.mp hflat.2

/-- The row of a frame the query returns. -/
theorem Readable.row {sv : FlatServer} {db : EquipDb} {f : FrameRow} (h : Readable sv.instant db f) :
    ∃ r, flatRow sv db f = some r ∧ r.rigId = f.equip.rigId ∧ r.dateObsUtc = f.cols.dateObsUtc ∧
      r.epoch = some (obsSecond sv.instant f) ∧ r.filterId = f.equip.filterId := by
  obtain ⟨i, hi⟩ := h.rigId
  obtain ⟨t, ht, hpos⟩ := h.dated
  obtain ⟨rig, hrig, hid⟩ := List.mem_map.mp (h.rig i hi)
  obtain ⟨r, hr⟩ : ∃ r, (db.rigs.rows.find? fun r => f.equip.rigId = some r.id) = some r :=
    Option.isSome_iff_exists.mp (List.find?_isSome.mpr
      ⟨rig, hrig, decide_eq_true (hi.trans (congrArg some hid.symm))⟩)
  unfold flatRow
  rw [hr]
  refine ⟨_, rfl, rfl, rfl, ?_, rfl⟩
  show (obsInstant sv.instant f).bind sv.unixTimestamp = some (obsSecond sv.instant f)
  unfold obsSecond
  rw [ht]
  exact sv.unix_whole t hpos

/-! ### The loop returns the runs -/

omit [Host] in
theorem suggestStep_opens {gapS : Int} {st : Clustering} {r : FlatRow} {rig : ℕ} {date : Str} {epoch : Int}
    (hrig : r.rigId = some rig) (hdate : r.dateObsUtc = some date) (hepoch : r.epoch = some epoch)
    (h : Opens gapS st rig (fidOfRow r) epoch) :
    ∃ c, suggestStep gapS st r = ⟨st.flush, some c, rig, fidOfRow r, epoch⟩ ∧ c.rigId = rig ∧
      c.filterId = r.filterId ∧ c.startUtc = date ∧ c.endUtc = date ∧ c.frames = 1 := by
  unfold suggestStep
  rw [hrig, hdate, hepoch]
  dsimp only
  rw [if_pos h]
  unfold Clustering.open Clustering.add
  exact ⟨_, rfl, rfl, rfl, rfl, rfl, rfl⟩

omit [Host] in
theorem suggestStep_joins {gapS : Int} {st : Clustering} {r : FlatRow} {rig : ℕ} {date : Str} {epoch : Int}
    (hrig : r.rigId = some rig) (hdate : r.dateObsUtc = some date) (hepoch : r.epoch = some epoch)
    (h : ¬Opens gapS st rig (fidOfRow r) epoch) :
    suggestStep gapS st r = st.add date epoch := by
  unfold suggestStep
  rw [hrig, hdate, hepoch]
  dsimp only
  rw [if_neg h]

/-- The variables of the loop after some frames: the clusters of the runs that are over, and that of
the last run, which the last frame ends. -/
inductive Scanned (instant : Str → Option Micros) (db : EquipDb) (gapS : Int) :
    List FrameRow → Clustering → Prop
  | start : Scanned instant db gapS [] {}
  | run {l : List FrameRow} {st : Clustering} (done : List (List FrameRow)) (cur : List FrameRow)
      (a : FrameRow) (c : Cluster) (rig : ℕ) :
      l.splitBy (sameSet instant gapS) = done ++ [cur ++ [a]] → Readable instant db a →
      List.Forall₂ Summary st.out done → st.cur = some c → Summary c (cur ++ [a]) →
      a.equip.rigId = some rig → st.curRig = rig → st.curFid = fidOf a →
      st.lastEpoch = obsSecond instant a → Scanned instant db gapS l st

/-- The loop joins a frame to the last cluster exactly if it is of the last frame's set. -/
theorem opens_iff {instant : Str → Option Micros} {db : EquipDb} {gapS : Int} {st : Clustering}
    {a b : FrameRow} {i j : ℕ} {c : Cluster} (ha : Readable instant db a) (hb : Readable instant db b)
    (hi : a.equip.rigId = some i) (hj : b.equip.rigId = some j) (hcur : st.cur = some c)
    (hrig : st.curRig = i) (hfid : st.curFid = fidOf a) (hlast : st.lastEpoch = obsSecond instant a) :
    Opens gapS st j (fidOf b) (obsSecond instant b) ↔ sameSet instant gapS a b = false := by
  have hkey := rigAndFilter_eq_iff hi hj ha.filter hb.filter
  have hfidIff : fidOf b = fidOf a ↔ a.equip.filterId = b.equip.filterId :=
    ⟨fun h => (fidOf_inj h).symm, fun h => by unfold fidOf; rw [h]⟩
  unfold Opens sameSet near
  rw [hcur, hrig, hfid, hlast, Bool.and_eq_false_iff, decide_eq_false_iff_not,
    decide_eq_false_iff_not, hkey, ne_eq, ne_eq, hfidIff, Int.natCast_inj, Int.not_le, not_and_or,
    eq_comm (a := j), or_assoc]
  exact or_iff_right Bool.false_ne_true

theorem Scanned.step {sv : FlatServer} {db : EquipDb} {gapS : Int} {l : List FrameRow}
    {st : Clustering} (h : Scanned sv.instant db gapS l st) {b : FrameRow}
    (hb : Readable sv.instant db b) {r : FlatRow} (hr : flatRow sv db b = some r) :
    Scanned sv.instant db gapS (l ++ [b]) (suggestStep gapS st r) := by
  obtain ⟨r', hr', hrig, hdate, hepoch, hfilter⟩ := hb.row
  cases hr.symm.trans hr'
  obtain ⟨j, hj⟩ := hb.rigId
  obtain ⟨date, hd⟩ := hb.date
  rw [hj] at hrig
  rw [hd] at hdate
  have hfid : fidOfRow r = fidOf b := by
    unfold fidOfRow fidOf
    rw [hfilter]
  have hone : ∀ c : Cluster, c.rigId = j → c.filterId = r.filterId → c.startUtc = date →
      c.endUtc = date → c.frames = 1 → Summary c [b] := by
    intro c h₁ h₂ h₃ h₄ h₅
    refine ⟨h₅, List.forall_mem_singleton.mpr (by rw [hj, h₁]),
      List.forall_mem_singleton.mpr (by rw [h₂, hfilter]), fun f hf => ?_, fun f hf => ?_⟩
    · have hbf : b = f := Option.some.inj hf
      rw [← hbf, hd, h₃]
    · have hbf : b = f := Option.some.inj hf
      rw [← hbf, hd, h₄]
  cases h with
  | start =>
    have hfirst : Opens gapS {} j (fidOfRow r) (obsSecond sv.instant b) := .inl rfl
    obtain ⟨c, hstep, h₁, h₂, h₃, h₄, h₅⟩ := suggestStep_opens hrig hdate hepoch hfirst
    rw [hstep, hfid]
    exact .run [] [] b c j rfl hb .nil rfl (hone c h₁ h₂ h₃ h₄ h₅) hj rfl rfl rfl
  | run done cur a c i hsplit ha hout hcur hc hi hcurRig hcurFid hlast =>
    have hopens : Opens gapS st j (fidOf b) (obsSecond sv.instant b) ↔
        sameSet sv.instant gapS a b = false := opens_iff ha hb hi hj hcur hcurRig hcurFid hlast
    rw [← hfid] at hopens
    cases hsame : sameSet sv.instant gapS a b with
    | false =>
      obtain ⟨c', hstep, h₁, h₂, h₃, h₄, h₅⟩ := suggestStep_opens hrig hdate hepoch (hopens.mpr hsame)
      rw [hstep, hfid]
      have hflush : List.Forall₂ Summary st.flush (done ++ [cur ++ [a]]) := by
        unfold Clustering.flush
        rw [hcur]
        exact List.rel_append hout (.cons hc .nil)
      exact .run (done ++ [cur ++ [a]]) [] b c' j (splitBy_concat_far hsplit hsame) hb hflush rfl
        (hone c' h₁ h₂ h₃ h₄ h₅) hj rfl rfl rfl
    | true =>
      have hno : ¬Opens gapS st j (fidOfRow r) (obsSecond sv.instant b) := fun ho => by
        rw [hopens.mp ho] at hsame
        cases hsame
      rw [suggestStep_joins hrig hdate hepoch hno]
      have hkey := (Bool.and_eq_true_iff.mp hsame).1
      obtain ⟨hij, hff⟩ := (rigAndFilter_eq_iff hi hj ha.filter hb.filter).mp (of_decide_eq_true hkey)
      have hlastMem : a ∈ cur ++ [a] := List.mem_append_right _ List.mem_cons_self
      have hadd : (st.add date (obsSecond sv.instant b)).cur =
          some { c with endUtc := date, frames := c.frames + 1 } := by
        unfold Clustering.add
        rw [hcur]
        rfl
      have hrig' : st.curRig = j := by rw [hcurRig, hij]
      have hfid' : st.curFid = fidOf b := by
        rw [hcurFid]
        unfold fidOf
        rw [hff]
      refine .run done (cur ++ [a]) b _ j (splitBy_concat_near hsplit hsame) hb hout hadd ?_ hj hrig'
        hfid' rfl
      refine ⟨?_, fun f hf => ?_, fun f hf => ?_, fun f hf => ?_, fun f hf => ?_⟩
      · rw [List.length_append, ← hc.frames]
        rfl
      · rcases List.mem_append.mp hf with hf | hf
        · exact hc.rig f hf
        · rw [List.mem_singleton.mp hf, hj, ← hij, ← hi]
          exact hc.rig a hlastMem
      · rcases List.mem_append.mp hf with hf | hf
        · exact hc.filter f hf
        · rw [List.mem_singleton.mp hf, ← hff]
          exact hc.filter a hlastMem
      · refine hc.start f ?_
        rw [List.head?_append_of_ne_nil _ (List.append_ne_nil_of_right_ne_nil _ (List.cons_ne_nil _ _))] at hf
        exact hf
      · rw [List.getLast?_concat] at hf
        rw [← Option.some.inj hf, hd]

/-- **PROVED**: the loop returns one cluster for each run, in their order. -/
theorem suggestFlats_runs {sv : FlatServer} {db : EquipDb} (gapS : Int) {order : List FrameRow}
    (horder : ∀ f ∈ order, Readable sv.instant db f) :
    List.Forall₂ Summary (suggestFlats gapS (order.filterMap (flatRow sv db)))
      (order.splitBy (sameSet sv.instant gapS)) := by
  have hscan : Scanned sv.instant db gapS order
      ((order.filterMap (flatRow sv db)).foldl (suggestStep gapS) {}) := by
    induction order using List.reverseRecOn with
    | nil => exact .start
    | append_singleton l b ih =>
      have hb := horder b (List.mem_append_right _ List.mem_cons_self)
      obtain ⟨r, hr, -⟩ := hb.row
      rw [List.filterMap_append, List.foldl_append, List.filterMap_cons_some hr]
      exact (ih fun f hf => horder f (List.mem_append_left _ hf)).step hb hr
  unfold suggestFlats Clustering.flush
  cases hscan with
  | start => exact .nil
  | run done cur a c i hsplit ha hout hcur hc =>
    rw [hsplit, hcur]
    exact List.rel_append hout (.cons hc .nil)

/-! ### The partition -/

/-- What a cluster says of its members: their rig and filter, their number, and the first and the last
of their dates. -/
structure Describes (instant : Str → Option Micros) (c : Cluster) (g : List FrameRow) : Prop where
  rig : ∀ f ∈ g, f.equip.rigId = some c.rigId
  filter : ∀ f ∈ g, f.equip.filterId = c.filterId
  frames : c.frames = g.length
  start : ∃ f ∈ g, f.cols.dateObsUtc = some c.startUtc ∧
    ∀ f' ∈ g, (obsInstant instant f).getD 0 ≤ (obsInstant instant f').getD 0
  stop : ∃ f ∈ g, f.cols.dateObsUtc = some c.endUtc ∧
    ∀ f' ∈ g, (obsInstant instant f').getD 0 ≤ (obsInstant instant f).getD 0

omit [Host] in
theorem inOrder_seconds {instant : Str → Option Micros} {a b : FrameRow} (h : beforeFlat instant a b) :
    InOrder rigAndFilter (obsSecond instant) a b :=
  ⟨h.1, fun hkey => Int.ediv_le_ediv (by decide) (h.2 hkey)⟩

omit [Host] in
/-- Of a run in the order of the query the first date is the least and the last the greatest. -/
theorem Summary.describes {instant : Str → Option Micros} {c : Cluster} {g : List FrameRow}
    (h : Summary c g) (hne : g ≠ []) (hsorted : g.Pairwise (beforeFlat instant)) :
    Describes instant c g := by
  have hkey : ∀ a ∈ g, ∀ b ∈ g, rigAndFilter a = rigAndFilter b := fun a ha b hb => by
    unfold rigAndFilter
    rw [h.rig a ha, h.rig b hb, h.filter a ha, h.filter b hb]
  refine ⟨h.rig, h.filter, h.frames, ⟨g.head hne, List.head_mem hne, ?_, fun f hf => ?_⟩,
    ⟨g.getLast hne, List.getLast_mem hne, ?_, fun f hf => ?_⟩⟩
  · exact h.start _ (List.head?_eq_some_head hne)
  · obtain ⟨x, xs, rfl⟩ := List.exists_cons_of_ne_nil hne
    rcases List.mem_cons.mp hf with rfl | hf
    · exact le_rfl
    · exact ((List.pairwise_cons.mp hsorted).1 f hf).2
        (hkey _ List.mem_cons_self f (List.mem_cons_of_mem x hf))
  · exact h.stop _ (List.getLast?_eq_some_getLast hne)
  · exact (inOrder_last hsorted hne hf).2 (hkey f hf _ (List.getLast_mem hne))

omit [Host] in
theorem describes_of_summaries {instant : Str → Option Micros} {cs : List Cluster}
    {gs : List (List FrameRow)} (h : List.Forall₂ Summary cs gs)
    (hgs : ∀ g ∈ gs, g ≠ [] ∧ g.Pairwise (beforeFlat instant)) :
    List.Forall₂ (Describes instant) cs gs := by
  induction h with
  | nil => exact .nil
  | cons hhead _ ih =>
    obtain ⟨hne, hsorted⟩ := hgs _ List.mem_cons_self
    exact .cons (hhead.describes hne hsorted) (ih fun g hg => hgs g (List.mem_cons_of_mem _ hg))

omit [Host] in
/-- Within a run each frame is followed within the gap. -/
theorem follows_of_run {instant : Str → Option Micros} {gapS : Int} {g : List FrameRow}
    (hrun : g.IsChain fun a b => sameSet instant gapS a b = true)
    (hsorted : g.Pairwise (InOrder rigAndFilter (obsSecond instant))) :
    g.IsChain fun a b => obsSecond instant a ≤ obsSecond instant b ∧
      obsSecond instant b - obsSecond instant a ≤ gapS := by
  induction g with
  | nil => exact .nil
  | cons a g ih =>
    cases g with
    | nil => exact .singleton a
    | cons b g =>
      obtain ⟨hab, hrest⟩ := List.isChain_cons_cons.mp hrun
      obtain ⟨hkey, hgap⟩ := Bool.and_eq_true_iff.mp hab
      obtain ⟨hbefore, hsorted'⟩ := List.pairwise_cons.mp hsorted
      exact .cons_cons ⟨(hbefore b List.mem_cons_self).2 (of_decide_eq_true hkey),
        of_decide_eq_true hgap⟩ (ih hrest hsorted')

/-- Each cluster tells of its run. -/
theorem suggestFlats_describes {sv : FlatServer} {db : EquipDb} (gapS : Int) {order : List FrameRow}
    (horder : ∀ f ∈ order, Readable sv.instant db f) (hsorted : order.Pairwise (beforeFlat sv.instant)) :
    List.Forall₂ (Describes sv.instant) (suggestFlats gapS (order.filterMap (flatRow sv db)))
      (order.splitBy (sameSet sv.instant gapS)) := by
  rw [← List.flatten_splitBy (sameSet sv.instant gapS) order] at hsorted
  exact describes_of_summaries (suggestFlats_runs gapS horder) fun g hg =>
    ⟨List.ne_nil_of_mem_splitBy hg, (List.pairwise_flatten.mp hsorted).1 g hg⟩

/-- **PROVED: the clusters partition the flats.** Whatever order the server returns ties in, the
clusters are those of groups of the unassigned flats, each in one group: the flats of a group are of one
rig and filter and follow within the gap, and two groups of one rig and filter are more than the gap
apart. -/
theorem suggestFlats_partition (sv : FlatServer) (db : EquipDb) (gapS : Int) {order : List FrameRow}
    (hperm : order.Perm (db.frames.rows.filter unassigned))
    (hsorted : order.Pairwise (beforeFlat sv.instant))
    (hdates : ∀ f ∈ db.frames.rows, f.cols.dateObsUtc.isSome →
      ∃ t, obsInstant sv.instant f = some t ∧ 0 ≤ t)
    (hfilters : ∀ f ∈ db.frames.rows, f.equip.filterId ≠ some 0) :
    ∃ groups : List (List FrameRow),
      List.Forall₂ (Describes sv.instant) (suggestFlats gapS (order.filterMap (flatRow sv db))) groups ∧
      groups.flatten.Nodup ∧
      (∀ f, f ∈ groups.flatten ↔ f ∈ db.frames.rows ∧ unassigned f = true) ∧
      (∀ g ∈ groups, g ≠ [] ∧ g.IsChain fun a b =>
        obsSecond sv.instant a ≤ obsSecond sv.instant b ∧
          obsSecond sv.instant b - obsSecond sv.instant a ≤ gapS) ∧
      groups.Pairwise fun g h => ∀ a ∈ g, ∀ b ∈ h, a.equip.rigId = b.equip.rigId →
        a.equip.filterId = b.equip.filterId →
        gapS < obsSecond sv.instant b - obsSecond sv.instant a := by
  have hmem : ∀ f ∈ order, f ∈ db.frames.rows ∧ unassigned f = true := fun f hf =>
    List.mem_filter.mp (hperm.mem_iff.mp hf)
  have hreadable : ∀ f ∈ order, Readable sv.instant db f := fun f hf => by
    obtain ⟨hrow, hflat⟩ := hmem f hf
    have hdate : f.cols.dateObsUtc.isSome = true := by
      unfold unassigned at hflat
      exact (Bool.and_eq_true_iff.mp hflat).2
    exact ⟨hflat, hdates f hrow hdate, hfilters f hrow, fun i hi => db.frames_fk f hrow i hi⟩
  have hseconds : order.Pairwise (InOrder rigAndFilter (obsSecond sv.instant)) :=
    hsorted.imp inOrder_seconds
  have hflatten := List.flatten_splitBy (sameSet sv.instant gapS) order
  have hin : ∀ g ∈ order.splitBy (sameSet sv.instant gapS),
      g.Pairwise (InOrder rigAndFilter (obsSecond sv.instant)) := by
    rw [← hflatten] at hseconds
    exact (List.pairwise_flatten.mp hseconds).1
  refine ⟨order.splitBy (sameSet sv.instant gapS), ?_, ?_, fun f => ?_, fun g hg => ⟨?_, ?_⟩, ?_⟩
  · exact suggestFlats_describes gapS hreadable hsorted
  · rw [hflatten]
    exact hperm.nodup_iff.mpr (db.frames.rows_nodup.filter _)
  · rw [hflatten, hperm.mem_iff, List.mem_filter]
  · exact List.ne_nil_of_mem_splitBy hg
  · exact follows_of_run (List.isChain_of_mem_splitBy hg) (hin g hg)
  · refine (pairwise_runs hseconds).imp fun h a ha b hb hrig hfilter => h a ha b hb ?_
    unfold rigAndFilter
    rw [hrig, hfilter]

end Server

/-! ### Three flats of one rig -/

section Three

attribute [local instance] plainHost

def flatFrame (fileId : ℕ) (date : Str) (filter : Option ℕ) : RowMaker frameKeying (fileId, 0) :=
  newFrame fileId ⟨0, true, 16, 2, 1, 1, []⟩ { imageType := .flat, dateObsUtc := some date }
    { cameraId := some 1, rigId := some 1, filterId := filter }

def threeOClock : Str := "2024-07-05 03:00:00".toList

def oneMinuteLater : Str := "2024-07-05 03:01:00".toList

def twoMinutesLater : Str := "2024-07-05 03:02:00".toList

/-- Two flats without a filter, and one with a filter a minute behind the first. -/
def threeFlats : EquipDb where
  frames := (((Table.empty frameKeying).upsert _ (flatFrame 1 threeOClock none) (setFlatSet none)).upsert _
    (flatFrame 2 oneMinuteLater (some 1)) (setFlatSet none)).upsert _
    (flatFrame 3 twoMinutesLater none) (setFlatSet none)
  rigs := (Table.empty rigKeying).upsert _
    (EquipDb.newRig "Askar185".toList 1 none none 1000 1100) (setActiveFlatSet none)
  flatSets := Table.empty flatSetKeying
  pins := []
  nextPin := 1
  telescopes := Table.empty nameKeying
  cameraIds := [1]
  siteIds := []
  savedQueryIds := []
  frames_fk := by decide
  flatSets_fk := by decide
  pins_fk := by decide

/-- A server that knows three minutes of one night. -/
def threeMinutes : FlatServer where
  instant s := if s = threeOClock then some 1720148400000000
    else if s = oneMinuteLater then some 1720148460000000
    else if s = twoMinutesLater then some 1720148520000000 else none
  unixTimestamp t := if 0 ≤ t then some (wholeSeconds t) else none
  unix_whole _ h := if_pos h
  filterName i := if i = 1 then some "Ha".toList else none

/-- The rows in the order of the query: without a filter first. -/
def threeOrder : List FrameRow :=
  threeFlats.frames.rows.filter (fun f => f.equip.filterId = none) ++
    threeFlats.frames.rows.filter fun f => f.equip.filterId ≠ none

theorem threeOrder_perm : threeOrder.Perm (threeFlats.frames.rows.filter unassigned) := by decide

theorem threeOrder_sorted : threeOrder.Pairwise (beforeFlat threeMinutes.instant) := by decide

/-- A gap of a minute parts the two flats without a filter, and the filter parts the third. -/
theorem suggestFlats_partition_three :
    ∃ groups : List (List FrameRow),
      List.Forall₂ (Describes threeMinutes.instant)
        (suggestFlats 60 (threeOrder.filterMap (flatRow threeMinutes threeFlats))) groups ∧
      groups.flatten.Nodup ∧ groups.length = 3 := by
  obtain ⟨groups, hdescribes, hnodup, -⟩ := suggestFlats_partition threeMinutes threeFlats 60
    threeOrder_perm threeOrder_sorted (by decide) (by decide)
  have hthree : (suggestFlats 60 (threeOrder.filterMap (flatRow threeMinutes threeFlats))).length = 3 := by
    decide
  exact ⟨groups, hdescribes, hnodup, hdescribes.length_eq.symm.trans hthree⟩

end Three

end StarBase.Api
