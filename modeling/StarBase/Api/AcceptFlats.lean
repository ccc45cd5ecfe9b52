import StarBase.Api.FlatSuggestions

/-!
# Accepting a suggested flat set

The page posts a cluster's rig, filter and window as a new flat set, and the route claims the flats it
finds there.

* `acceptBody`, `postFlatSetOf` — the request, and the route with its `UPDATE`;
* `postFlatSetOf_frames` — **PROVED**: what the request leaves of `frames`;
* `claims_iff_mem` — **PROVED**: the window finds a cluster's members and its bystanders;
* `accept_iff` — **PROVED**: the set gets the cluster exactly if its label is taken and nobody stands by.

`frames.master_of`, which no statement writes, is a parameter of the route; that the page trims the
label is left out.
-/

namespace StarBase.Api

open Relational Statements Extract Clusters

section Server

variable [Host]

/-! ### The request and the route -/

/-- What the page posts for a cluster: 0 stands for no filter. -/
def acceptBody (c : Cluster) (label : Str) (active : Bool) : Json :=
  .obj [("rig_id".toList, .int c.rigId), ("filter_id".toList, .int (c.filterId.getD 0 : ℕ)),
    ("label".toList, .str label), ("start_utc".toList, .str c.startUtc),
    ("end_utc".toList, .str c.endUtc), ("set_active".toList, .bool active)]

/-- `image_type = 'flat' OR (image_type = 'master' AND master_of = 'flat')`; no statement writes
`master_of`, so the column is a parameter. -/
def isFlat (masterOf : FrameRow → Option ImageType) (f : FrameRow) : Bool :=
  f.cols.imageType = .flat || (f.cols.imageType = .master && masterOf f = some .flat)

/-- The unclaimed flats of a rig in a window. -/
def claimableOf (masterOf : FrameRow → Option ImageType) (instant : Str → Option Micros) (rig : ℕ)
    (filter : Option ℕ) (start stop : Str) (f : FrameRow) : Bool :=
  f.equip.rigId = some rig && f.flatSetId = none && isFlat masterOf f &&
    (filter = none || f.equip.filterId = filter) &&
    f.cols.dateObsUtc.any (between instant start stop)

/-- `POST /equipment/flat-sets`, with the masters of flats. -/
def postFlatSetOf (masterOf : FrameRow → Option ImageType) (instant : Str → Option Micros)
    (token : Str) (now : Int) (req : Request) : Route EquipDb Response :=
  requireAdmin token now req <| handled do
    let body ← parseBody req
    let rig ← liftE (Json.value getInt body "rig_id".toList 0)
    let label ← liftE (body.valueStr "label".toList [])
    let start ← liftE (body.valueStr "start_utc".toList [])
    let stop ← liftE (body.valueStr "end_utc".toList [])
    if rig ≤ 0 ∨ label = [] ∨ start = [] ∨ stop = [] then
      pure (sendError 400 "rig_id, label, start_utc and end_utc are required".toList)
    else do
      let filter := positive (← liftE (Json.value getInt body "filter_id".toList 0))
      connect
      let source ← liftE (body.valueStr "source".toList "inferred".toList)
      let d ← (get : Route EquipDb (ApiDb EquipDb))
      let id := d.rest.flatSets.next
      orRefuse (execOn fun db => match FlatSource.ofText source with
          | none => .error dataError
          | some src => db.insertFlatSet (newFlatSet rig.toNat filter label src start stop
              (textMember body "valid_from".toList) (textMember body "valid_to".toList))) do
        claimFlats (claimableOf masterOf instant rig.toNat filter start stop) rig.toNat id label body

/-- Without masters it is the route of the equipment runs. -/
theorem postFlatSetOf_none : postFlatSetOf (fun _ => none) = postFlatSet := by
  have hclaim : claimableOf (fun _ => none) = claimable := by
    funext instant rig filter start stop f
    unfold claimableOf claimable isFlat
    simp
  unfold postFlatSetOf postFlatSet
  exact hclaim ▸ rfl

/-! ### What the request leaves -/

/-- The claims of a set are its `UPDATE`; what follows leaves the frames and the sets' ids alone. -/
theorem claimFlats_frames {body : Json} {active : Bool}
    (hactive : body.valueBool "set_active".toList false = .ok active) (claimed : FrameRow → Bool)
    (rig id : ℕ) (label : Str) (d : ApiDb EquipDb) :
    (claimFlats claimed rig id label body d []).store.rest.frames
        = (d.rest.assignFlatSet claimed (some id)).frames ∧
      (claimFlats claimed rig id label body d []).store.rest.flatSets.ids = d.rest.flatSets.ids := by
  unfold claimFlats
  simp only [affecting, bind_assoc, pure_bind, hactive, liftE]
  rw [bind_apply, get_apply, andThen_ok, bind_execOn_store]
  dsimp only [nextReply]
  rw [bind_execOn_store]
  dsimp only [nextReply]
  have hids : ∀ (db : EquipDb) n night, (db.countFlatSet id n night).flatSets.ids = db.flatSets.ids := by
    intro db n night
    exact Table.ids_modify
  cases active with
  | false => exact ⟨rfl, hids _ _ _⟩
  | true =>
    rw [if_pos rfl, bind_execOn_store]
    exact ⟨rfl, hids _ _ _⟩

/-- The server takes the new set: its label fits the column and is not taken under the rig. -/
def LabelFree (d : ApiDb EquipDb) (rig : ℕ) (label : Str) : Prop :=
  Host.fits 96 label = true ∧ d.rest.flatSets.get (rig, Host.collate label) = none

instance (d : ApiDb EquipDb) (rig : ℕ) (label : Str) : Decidable (LabelFree d rig label) :=
  inferInstanceAs (Decidable (_ ∧ _))

omit [Host] in
theorem getInt_id {i : ℕ} (h : i < 2 ^ 31) : getInt (.int i) = .ok (i : Int) := by
  have hi : Json.longOfInt i = i := by
    unfold Json.longOfInt
    exact Int.bmod_eq_of_le_mul_two (by norm_num; omega) (by norm_num; omega)
  exact congrArg Except.ok hi

omit [Host] in
theorem positive_filter {filter : Option ℕ} (h : ∀ i ∈ filter, 0 < i) :
    positive ((filter.getD 0 : ℕ) : Int) = filter := by
  cases filter with
  | none => rfl
  | some i => exact if_pos (Int.natCast_pos.mpr (h i rfl))

/-- The ids and dates of a cluster are those of rows. -/
structure Postable (db : EquipDb) (c : Cluster) : Prop where
  known : c.rigId ∈ db.rigs.ids
  rig : 0 < c.rigId ∧ c.rigId < 2 ^ 31
  filter : ∀ i ∈ c.filterId, 0 < i ∧ i < 2 ^ 31
  start : c.startUtc ≠ [] ∧ Host.isDatetime c.startUtc = true
  stop : c.endUtc ≠ [] ∧ Host.isDatetime c.endUtc = true

/-- The route comes to its two statements. -/
theorem postFlatSetOf_body {masterOf : FrameRow → Option ImageType} {instant : Str → Option Micros}
    {token : Str} {now : Int} {req : Request} {d : ApiDb EquipDb} {c : Cluster} {label : Str}
    {active : Bool} (hreq : req.body = .ok (acceptBody c label active)) (hlabel : label ≠ [])
    (hc : Postable d.rest c) (hadm : Admitted token now req d []) :
    (postFlatSetOf masterOf instant token now req d []).store
      = (orRefuse (execOn fun db => db.insertFlatSet (newFlatSet c.rigId c.filterId label .inferred
            c.startUtc c.endUtc none none))
          (claimFlats (claimableOf masterOf instant c.rigId c.filterId c.startUtc c.endUtc) c.rigId
            d.rest.flatSets.next label (acceptBody c label active)) d []).store := by
  have hrig : Json.value getInt (acceptBody c label active) "rig_id".toList 0 = .ok (c.rigId : Int) :=
    getInt_id hc.rig.2
  have hfilter : Json.value getInt (acceptBody c label active) "filter_id".toList 0
      = .ok ((c.filterId.getD 0 : ℕ) : Int) := by
    refine getInt_id ?_
    cases hf : c.filterId with
    | none => decide
    | some i => exact (hc.filter i hf).2
  have hlab : (acceptBody c label active).valueStr "label".toList [] = .ok label := rfl
  have hstart : (acceptBody c label active).valueStr "start_utc".toList [] = .ok c.startUtc := rfl
  have hstop : (acceptBody c label active).valueStr "end_utc".toList [] = .ok c.endUtc := rfl
  have hsource : (acceptBody c label active).valueStr "source".toList "inferred".toList
      = .ok "inferred".toList := rfl
  have hfrom : textMember (acceptBody c label active) "valid_from".toList = none := rfl
  have hto : textMember (acceptBody c label active) "valid_to".toList = none := rfl
  have hgood : ¬((c.rigId : Int) ≤ 0 ∨ label = [] ∨ c.startUtc = [] ∨ c.endUtc = []) := by
    rintro (h | h | h | h)
    · exact absurd h (not_le.mpr (Int.natCast_pos.mpr hc.rig.1))
    · exact hlabel h
    · exact hc.start.1 h
    · exact hc.stop.1 h
  unfold postFlatSetOf
  rw [(requireAdmin_store_of_admitted hadm).2, handled_store, List.drop_nil]
  simp only [parseBody, hreq, hrig, hlab, hstart, hstop, hfilter, hsource, hfrom, hto, liftE, pure_bind,
    if_neg hgood]
  have hinferred : FlatSource.ofText "inferred".toList = some .inferred := if_pos rfl
  have hanswered : (nextReply ([] : List Reply)).1 = .ok := rfl
  rw [positive_filter fun i hi => (hc.filter i hi).1, Int.toNat_natCast, connect, bind_query_store,
    if_pos hanswered, hinferred]
  rfl

theorem execOn_ok {W : Type} {f : W → Except Thrown W} {d : ApiDb W} {w : W} (h : f d.rest = .ok w) :
    execOn f d [] = ⟨.ok (), { d with rest := w }, []⟩ := by
  have hf : (f d.rest).map (fun w => ({ d with rest := w } : ApiDb W)) = .ok { d with rest := w } := by
    rw [h]
    rfl
  exact exec_healthy_ok d hf

theorem execOn_error {W : Type} {f : W → Except Thrown W} {d : ApiDb W} {e : Thrown}
    (h : f d.rest = .error e) : execOn f d [] = ⟨.error e, d, []⟩ := by
  have hf : (f d.rest).map (fun w => ({ d with rest := w } : ApiDb W)) = .error e := by
    rw [h]
    rfl
  exact exec_healthy_error d hf

/-- The server takes a new set that is free. -/
theorem insertFlatSet_of_free {db : EquipDb} {k : ℕ × Str} {mk : RowMaker flatSetKeying k}
    (hacc : EquipDb.flatSetAccepted (mk.make 0) = true) (hk : k.1 ∈ db.rigs.ids)
    (hfree : db.flatSets.get k = none) :
    ∃ t, db.insertFlatSet mk = .ok t ∧ t.frames = db.frames ∧ db.flatSets.next ∈ t.flatSets.ids := by
  unfold EquipDb.insertFlatSet
  rw [hacc, if_neg Bool.noConfusion, dif_pos hk]
  split
  · next h => rw [hfree] at h; cases h
  · exact ⟨_, rfl, rfl, Table.next_mem_insertNew hfree⟩

/-- It refuses any other. -/
theorem insertFlatSet_of_not_free {db : EquipDb} {k : ℕ × Str} {mk : RowMaker flatSetKeying k}
    (h : ¬(EquipDb.flatSetAccepted (mk.make 0) = true ∧ db.flatSets.get k = none)) :
    ∃ e, db.insertFlatSet mk = .error e := by
  unfold EquipDb.insertFlatSet
  split
  · exact ⟨_, rfl⟩
  · next hacc =>
    split
    · split
      · exact ⟨_, rfl⟩
      · next hfree => exact absurd ⟨by simpa using hacc, hfree⟩ h
    · exact ⟨_, rfl⟩

/-- What a posted cluster leaves of the frames. -/
theorem postFlatSetOf_frames (masterOf : FrameRow → Option ImageType) (instant : Str → Option Micros)
    {token : Str} {now : Int} {req : Request} {d : ApiDb EquipDb} {c : Cluster} {label : Str}
    {active : Bool} (hreq : req.body = .ok (acceptBody c label active)) (hlabel : label ≠ [])
    (hc : Postable d.rest c) (hadm : Admitted token now req d []) :
    (LabelFree d c.rigId label →
      (postFlatSetOf masterOf instant token now req d []).store.rest.frames.rows
          = d.rest.frames.rows.map (fun f =>
              if claimableOf masterOf instant c.rigId c.filterId c.startUtc c.endUtc f = true then
                { f with flatSetId := some d.rest.flatSets.next }
              else f) ∧
        d.rest.flatSets.next ∈
          (postFlatSetOf masterOf instant token now req d []).store.rest.flatSets.ids) ∧
    (¬LabelFree d c.rigId label → (postFlatSetOf masterOf instant token now req d []).store = d) := by
  rw [postFlatSetOf_body hreq hlabel hc hadm]
  have hacc : EquipDb.flatSetAccepted ((newFlatSet c.rigId c.filterId label .inferred c.startUtc c.endUtc
      none none).make 0) = Host.fits 96 label := by
    unfold EquipDb.flatSetAccepted newFlatSet
    simp [hc.start.2, hc.stop.2]
  constructor
  · rintro ⟨hfits, hfree⟩
    obtain ⟨t, ht, hframes, hid⟩ := insertFlatSet_of_free (hacc.trans hfits) hc.known hfree
    have hrun : (orRefuse (execOn fun db => db.insertFlatSet (newFlatSet c.rigId c.filterId label .inferred
            c.startUtc c.endUtc none none))
          (claimFlats (claimableOf masterOf instant c.rigId c.filterId c.startUtc c.endUtc) c.rigId
            d.rest.flatSets.next label (acceptBody c label active)) d [])
        = claimFlats (claimableOf masterOf instant c.rigId c.filterId c.startUtc c.endUtc) c.rigId
            d.rest.flatSets.next label (acceptBody c label active) { d with rest := t } [] := by
      unfold orRefuse
      rw [bind_apply, tryCatch_apply, bind_apply, execOn_ok ht]
      rfl
    have hactive : (acceptBody c label active).valueBool "set_active".toList false = .ok active := rfl
    obtain ⟨hrows, hids⟩ := claimFlats_frames hactive
      (claimableOf masterOf instant c.rigId c.filterId c.startUtc c.endUtc) c.rigId
      d.rest.flatSets.next label { d with rest := t }
    rw [hrun, hrows, hids]
    refine ⟨?_, hid⟩
    show (t.frames.modify _ _).rows = _
    rw [hframes]
    rfl
  · intro hno
    have hrefused : ¬(EquipDb.flatSetAccepted ((newFlatSet c.rigId c.filterId label .inferred c.startUtc
        c.endUtc none none).make 0) = true ∧ d.rest.flatSets.get (c.rigId, Host.collate label) = none) :=
      fun h => hno ⟨hacc.symm.trans h.1, h.2⟩
    obtain ⟨e, he⟩ := insertFlatSet_of_not_free hrefused
    unfold orRefuse
    rw [bind_apply, tryCatch_apply, bind_apply, execOn_error he]
    rfl

/-! ### Who is in the window -/

/-- The ids of the frames are those the server gave, and it reads their dates, from 1970 on. -/
structure Stored (sv : FlatServer) (db : EquipDb) : Prop where
  dates : ∀ f ∈ db.frames.rows, ∀ s ∈ f.cols.dateObsUtc,
    s ≠ [] ∧ Host.isDatetime s = true ∧ ∃ t, sv.instant s = some t ∧ 0 ≤ t
  rigs : ∀ f ∈ db.frames.rows, ∀ i ∈ f.equip.rigId, 0 < i ∧ i < 2 ^ 31
  filters : ∀ f ∈ db.frames.rows, ∀ i ∈ f.equip.filterId, 0 < i ∧ i < 2 ^ 31

/-- The rows of the query in an order the server may return them in. -/
structure QueryOrder (sv : FlatServer) (db : EquipDb) (order : List FrameRow) : Prop where
  perm : order.Perm (db.frames.rows.filter unassigned)
  sorted : order.Pairwise (beforeFlat sv.instant)

/-- A frame the route finds in a cluster's window that is none of its flats: one with a filter, if the
cluster has none, or a master of flats. -/
def StandsBy (masterOf : FrameRow → Option ImageType) (instant : Str → Option Micros) (c : Cluster)
    (f : FrameRow) : Prop :=
  f.equip.rigId = some c.rigId ∧ f.flatSetId = none ∧
    f.cols.dateObsUtc.any (between instant c.startUtc c.endUtc) = true ∧
    (f.cols.imageType = .flat ∧ c.filterId = none ∧ f.equip.filterId ≠ none ∨
      f.cols.imageType = .master ∧ masterOf f = some .flat ∧
        (c.filterId = none ∨ f.equip.filterId = c.filterId))

instance (masterOf : FrameRow → Option ImageType) (instant : Str → Option Micros) (c : Cluster) :
    DecidablePred (StandsBy masterOf instant c) :=
  fun _ => inferInstanceAs (Decidable (_ ∧ _ ∧ _ ∧ _))

omit [Host] in
theorem gapSeconds_nonneg (param : Option Str) : 0 ≤ gapSeconds param := by
  have hmem : 1 ≤ Query.qint param 45 1 100000 ∧ Query.qint param 45 1 100000 ≤ 100000 :=
    Query.qint_mem (by decide) (by decide)
  unfold gapSeconds
  omega

section Order

variable {sv : FlatServer} {db : EquipDb} {order : List FrameRow}

theorem QueryOrder.mem (h : QueryOrder sv db order) {f : FrameRow} :
    f ∈ order ↔ f ∈ db.frames.rows ∧ unassigned f = true := by
  rw [h.perm.mem_iff, List.mem_filter]

omit [Host] in
theorem unassigned_iff {f : FrameRow} : unassigned f = true ↔
    f.cols.imageType = .flat ∧ f.flatSetId = none ∧ f.equip.rigId.isSome = true ∧
      f.cols.dateObsUtc.isSome = true := by
  unfold unassigned
  simp [and_assoc]

theorem Stored.readable (hs : Stored sv db) {f : FrameRow} (hf : f ∈ db.frames.rows)
    (hflat : unassigned f = true) : Readable sv.instant db f := by
  obtain ⟨-, -, -, hdate⟩ := unassigned_iff.mp hflat
  obtain ⟨s, hds⟩ := Option.isSome_iff_exists.mp hdate
  obtain ⟨-, -, t, ht, hpos⟩ := hs.dates f hf s hds
  refine ⟨hflat, ⟨t, ?_, hpos⟩, fun h0 => ?_, fun i hi => db.frames_fk f hf i hi⟩
  · unfold obsInstant
    rw [hds]
    exact ht
  · exact absurd (hs.filters f hf 0 h0).1 (lt_irrefl 0)

omit [Host] in
theorem between_iff {instant : Str → Option Micros} {start stop t : Str} {a b x : Micros}
    (ha : instant start = some a) (hb : instant stop = some b) (hx : instant t = some x) :
    between instant start stop t = true ↔ a ≤ x ∧ x ≤ b := by
  unfold between
  rw [ha, hb, hx]
  simp

theorem Stored.instant (hs : Stored sv db) {f : FrameRow} (hf : f ∈ db.frames.rows) {s : Str}
    (hd : f.cols.dateObsUtc = some s) : sv.instant s = some ((obsInstant sv.instant f).getD 0) := by
  obtain ⟨-, -, t, ht, -⟩ := hs.dates f hf s hd
  unfold obsInstant
  rw [hd, Option.bind_some, ht]
  rfl

/-- The window of a cluster is that between the first and the last of its flats. -/
theorem window_iff (hs : Stored sv db) {c : Cluster} {g : List FrameRow}
    (hg : ∀ f ∈ g, f ∈ db.frames.rows) (hc : Describes sv.instant c g) :
    ∃ a ∈ g, ∃ b ∈ g,
      (∀ f ∈ g, (obsInstant sv.instant a).getD 0 ≤ (obsInstant sv.instant f).getD 0) ∧
      (∀ f ∈ g, (obsInstant sv.instant f).getD 0 ≤ (obsInstant sv.instant b).getD 0) ∧
      ∀ f ∈ db.frames.rows,
        (f.cols.dateObsUtc.any (between sv.instant c.startUtc c.endUtc) = true ↔
          f.cols.dateObsUtc.isSome = true ∧
            (obsInstant sv.instant a).getD 0 ≤ (obsInstant sv.instant f).getD 0 ∧
            (obsInstant sv.instant f).getD 0 ≤ (obsInstant sv.instant b).getD 0) := by
  obtain ⟨a, ha, hstart, hfirst⟩ := hc.start
  obtain ⟨b, hb, hstop, hlast⟩ := hc.stop
  refine ⟨a, ha, b, hb, hfirst, hlast, fun f hf => ?_⟩
  cases hd : f.cols.dateObsUtc with
  | none => simp
  | some s =>
    have hiff := between_iff (hs.instant (hg a ha) hstart) (hs.instant (hg b hb) hstop) (hs.instant hf hd)
    rw [Option.any_some, hiff]
    simp

/-- Another run of the cluster's rig and filter is not in its window. -/
theorem runs_apart {gapS : Int} (hgap : 0 ≤ gapS) (ho : QueryOrder sv db order)
    {g h : List FrameRow} (hg : g ∈ order.splitBy (sameSet sv.instant gapS))
    (hh : h ∈ order.splitBy (sameSet sv.instant gapS)) {a b f : FrameRow} (ha : a ∈ g) (hb : b ∈ g)
    (hf : f ∈ h) (hkey : ∀ x ∈ g, rigAndFilter x = rigAndFilter f)
    (haf : (obsInstant sv.instant a).getD 0 ≤ (obsInstant sv.instant f).getD 0)
    (hfb : (obsInstant sv.instant f).getD 0 ≤ (obsInstant sv.instant b).getD 0) : h = g := by
  have hseconds : order.Pairwise (InOrder rigAndFilter (obsSecond sv.instant)) :=
    ho.sorted.imp inOrder_seconds
  have h₁ : obsSecond sv.instant a ≤ obsSecond sv.instant f := Int.ediv_le_ediv (by decide) haf
  have h₂ : obsSecond sv.instant f ≤ obsSecond sv.instant b := Int.ediv_le_ediv (by decide) hfb
  by_contra hne
  rcases apart_of_ne hseconds hh hg hne with hfar | hfar
  · have hgap' := hfar f hf a ha (hkey a ha).symm
    omega
  · have hgap' := hfar b hb f hf (hkey b hb)
    omega

/-- The window of a cluster finds its flats and those standing by. -/
theorem claims_iff_mem {masterOf : FrameRow → Option ImageType} {gapS : Int} (hgap : 0 ≤ gapS)
    (hs : Stored sv db) (ho : QueryOrder sv db order) {c : Cluster} {g : List FrameRow}
    (hg : g ∈ order.splitBy (sameSet sv.instant gapS)) (hc : Describes sv.instant c g) {f : FrameRow}
    (hf : f ∈ db.frames.rows) :
    claimableOf masterOf sv.instant c.rigId c.filterId c.startUtc c.endUtc f = true ↔
      f ∈ g ∨ StandsBy masterOf sv.instant c f := by
  have hrow : ∀ x ∈ g, x ∈ order := fun x hx => by
    rw [← List.flatten_splitBy (sameSet sv.instant gapS) order]
    exact List.mem_flatten.mpr ⟨g, hg, hx⟩
  obtain ⟨a, ha, b, hb, hfirst, hlast, hwindow⟩ := window_iff hs (fun x hx => (ho.mem.mp (hrow x hx)).1) hc
  constructor
  · intro h
    unfold claimableOf isFlat at h
    simp only [Bool.and_eq_true, Bool.or_eq_true, decide_eq_true_eq] at h
    obtain ⟨⟨⟨⟨hrig, hset⟩, hflat⟩, hfilter⟩, hdate⟩ := h
    by_cases hsby : StandsBy masterOf sv.instant c f
    · exact .inr hsby
    · refine .inl ?_
      have hno : ¬(f.cols.imageType = .flat ∧ c.filterId = none ∧ f.equip.filterId ≠ none ∨
          f.cols.imageType = .master ∧ masterOf f = some .flat ∧
            (c.filterId = none ∨ f.equip.filterId = c.filterId)) := fun h => hsby ⟨hrig, hset, hdate, h⟩
      have hraw : f.cols.imageType = .flat :=
        hflat.resolve_right fun hm => hno (.inr ⟨hm.1, hm.2, hfilter⟩)
      have hsame : f.equip.filterId = c.filterId := by
        rcases hfilter with hnone | hsome
        · by_contra hne
          exact hno (.inl ⟨hraw, hnone, fun h => hne (h.trans hnone.symm)⟩)
        · exact hsome
      obtain ⟨hdated, haf, hfb⟩ := (hwindow f hf).mp hdate
      have hflatRow : unassigned f = true := unassigned_iff.mpr ⟨hraw, hset, by rw [hrig]; rfl, hdated⟩
      have hmem : f ∈ (order.splitBy (sameSet sv.instant gapS)).flatten := by
        rw [List.flatten_splitBy]
        exact ho.mem.mpr ⟨hf, hflatRow⟩
      obtain ⟨h, hh, hfh⟩ := List.mem_flatten.mp hmem
      have hkey : ∀ x ∈ g, rigAndFilter x = rigAndFilter f := fun x hx => by
        unfold rigAndFilter
        rw [hc.rig x hx, hc.filter x hx, hrig, hsame]
      rw [runs_apart hgap ho hg hh ha hb hfh hkey haf hfb] at hfh
      exact hfh
  · rintro (hfg | ⟨hrig, hset, hdate, htype⟩)
    · obtain ⟨-, hflatRow⟩ := ho.mem.mp (hrow f hfg)
      obtain ⟨hraw, hset, -, hdated⟩ := unassigned_iff.mp hflatRow
      unfold claimableOf isFlat
      simp only [Bool.and_eq_true, Bool.or_eq_true, decide_eq_true_eq]
      refine ⟨⟨⟨⟨hc.rig f hfg, hset⟩, .inl hraw⟩, .inr (hc.filter f hfg)⟩, ?_⟩
      exact (hwindow f hf).mpr ⟨hdated, hfirst f hfg, hlast f hfg⟩
    · unfold claimableOf isFlat
      simp only [Bool.and_eq_true, Bool.or_eq_true, decide_eq_true_eq]
      rcases htype with ⟨hraw, hnone, -⟩ | ⟨hmaster, hof, hscope⟩
      · exact ⟨⟨⟨⟨hrig, hset⟩, .inl hraw⟩, .inl hnone⟩, hdate⟩
      · exact ⟨⟨⟨⟨hrig, hset⟩, .inr ⟨hmaster, hof⟩⟩, hscope⟩, hdate⟩

/-- A cluster's ids and dates are those of its flats. -/
theorem Describes.postable (hs : Stored sv db) {c : Cluster} {g : List FrameRow}
    (hg : ∀ f ∈ g, f ∈ db.frames.rows) (hc : Describes sv.instant c g) : Postable db c := by
  obtain ⟨a, ha, hstart, -⟩ := hc.start
  obtain ⟨b, hb, hstop, -⟩ := hc.stop
  obtain ⟨hstart0, hstartOk, -⟩ := hs.dates a (hg a ha) _ hstart
  obtain ⟨hstop0, hstopOk, -⟩ := hs.dates b (hg b hb) _ hstop
  have hfilter := hs.filters a (hg a ha)
  rw [hc.filter a ha] at hfilter
  exact ⟨db.frames_fk a (hg a ha) _ (hc.rig a ha), hs.rigs a (hg a ha) _ (hc.rig a ha), hfilter,
    ⟨hstart0, hstartOk⟩, ⟨hstop0, hstopOk⟩⟩

end Order

/-! ### The set gets its cluster -/

/-- The new set is there, it has the flats of the cluster, and no other frame changed. -/
def ClaimsExactly (g : List FrameRow) (d d' : ApiDb EquipDb) : Prop :=
  d.rest.flatSets.next ∈ d'.rest.flatSets.ids ∧
    d'.rest.frames.rows = d.rest.frames.rows.map fun f =>
      if f ∈ g then { f with flatSetId := some d.rest.flatSets.next } else f

omit [Host] in
/-- Two updates of unassigned rows agree exactly if they are of the same rows. -/
theorem map_claim_eq_iff {rows g : List FrameRow} {claimed : FrameRow → Bool} {i : ℕ}
    (hclaimed : ∀ f, claimed f = true → f.flatSetId = none) (hg : ∀ f ∈ g, f.flatSetId = none) :
    (rows.map (fun f => if claimed f = true then { f with flatSetId := some i } else f)
        = rows.map fun f => if f ∈ g then { f with flatSetId := some i } else f) ↔
      ∀ f ∈ rows, (claimed f = true ↔ f ∈ g) := by
  have hnew : ∀ f : FrameRow, f.flatSetId = none → { f with flatSetId := some i } ≠ f := by
    intro f hf h
    have hset : some i = f.flatSetId := congrArg FrameRow.flatSetId h
    rw [hf] at hset
    cases hset
  rw [List.map_inj_left]
  refine forall₂_congr fun f _ => ?_
  by_cases hc : claimed f = true
  · by_cases hm : f ∈ g
    · simp [hc, hm]
    · rw [if_pos hc, if_neg hm]
      exact iff_of_false (hnew f (hclaimed f hc)) fun h => hm (h.mp hc)
  · by_cases hm : f ∈ g
    · rw [if_neg hc, if_pos hm]
      exact iff_of_false (fun h => hnew f (hg f hm) h.symm) fun h => hc (h.mpr hm)
    · simp [hc, hm]

/-- **PROVED: when accepting a suggestion creates that set.** Posting what the page derives from a
cluster gives the new set the cluster's flats and nothing else exactly if the label is free and no other
frame stands by in the cluster's window. -/
theorem accept_iff (sv : FlatServer) (masterOf : FrameRow → Option ImageType) (param : Option Str)
    {token : Str} {now : Int} {req : Request} {d : ApiDb EquipDb} {order g : List FrameRow} {c : Cluster}
    {label : Str} {active : Bool} (hadm : Admitted token now req d []) (hs : Stored sv d.rest)
    (ho : QueryOrder sv d.rest order)
    (hcluster : (c, g) ∈ (suggestFlats (gapSeconds param) (order.filterMap (flatRow sv d.rest))).zip
      (order.splitBy (sameSet sv.instant (gapSeconds param))))
    (hreq : req.body = .ok (acceptBody c label active)) (hlabel : label ≠ []) :
    ClaimsExactly g d (postFlatSetOf masterOf sv.instant token now req d []).store ↔
      LabelFree d c.rigId label ∧ ∀ f ∈ d.rest.frames.rows, ¬StandsBy masterOf sv.instant c f := by
  have hdescribes := suggestFlats_describes (gapSeconds param)
    (fun f hf => hs.readable (ho.mem.mp hf).1 (ho.mem.mp hf).2) ho.sorted
  have hc : Describes sv.instant c g := List.forall₂_zip hdescribes hcluster
  have hg : g ∈ order.splitBy (sameSet sv.instant (gapSeconds param)) := (List.of_mem_zip hcluster).2
  have hflats : ∀ f ∈ g, f ∈ d.rest.frames.rows ∧ unassigned f = true := fun f hf => by
    refine ho.mem.mp ?_
    rw [← List.flatten_splitBy (sameSet sv.instant (gapSeconds param)) order]
    exact List.mem_flatten.mpr ⟨g, hg, hf⟩
  obtain ⟨htaken, hrefused⟩ := postFlatSetOf_frames masterOf sv.instant hreq hlabel
    (hc.postable hs fun f hf => (hflats f hf).1) hadm
  by_cases hfree : LabelFree d c.rigId label
  · obtain ⟨hrows, hid⟩ := htaken hfree
    unfold ClaimsExactly
    rw [hrows, map_claim_eq_iff]
    · rw [and_iff_right hid, and_iff_right hfree]
      refine forall₂_congr fun f hf => ?_
      rw [claims_iff_mem (gapSeconds_nonneg param) hs ho hg hc hf, or_iff_left_iff_imp]
      -- a flat of the cluster does not stand by it
      refine ⟨fun h hsby => ?_, fun h hsby => absurd hsby h⟩
      have hfg := h hsby
      obtain ⟨-, -, -, htype⟩ := hsby
      obtain ⟨hraw, -⟩ := unassigned_iff.mp (hflats f hfg).2
      rcases htype with ⟨-, hnone, hsome⟩ | ⟨hmaster, -⟩
      · exact hsome ((hc.filter f hfg).trans hnone)
      · rw [hraw] at hmaster
        cases hmaster
    · intro f hf
      unfold claimableOf at hf
      simp only [Bool.and_eq_true, decide_eq_true_eq] at hf
      exact hf.1.1.1.2
    · exact fun f hf => (unassigned_iff.mp (hflats f hf).2).2.1
  · refine iff_of_false (fun h => ?_) fun h => hfree h.1
    have hnew := h.1
    rw [hrefused hfree] at hnew
    exact d.rest.flatSets.next_not_mem hnew

end Server

/-! ### The three flats accepted -/

section Three

attribute [local instance] plainHost

def threeDb : ApiDb EquipDb where
  users := Table.empty userKeying
  sessions := []
  rest := threeFlats

/-- The flats without a filter, two minutes apart, and the one between them. -/
def plainCluster : Cluster where
  rigId := 1
  rig := "Askar185".toList
  filterId := none
  filter := []
  startUtc := threeOClock
  endUtc := twoMinutesLater
  sessionNight := none
  frames := 2

def haCluster : Cluster where
  rigId := 1
  rig := "Askar185".toList
  filterId := some 1
  filter := "Ha".toList
  startUtc := oneMinuteLater
  endUtc := oneMinuteLater
  sessionNight := none
  frames := 1

/-- The page's request, with the server's token. -/
def accepts (c : Cluster) : Request where
  xSbToken := "k".toList
  body := .ok (acceptBody c "July".toList false)

theorem threeFlats_stored : Stored threeMinutes threeFlats := ⟨by decide, by decide, by decide⟩

theorem threeOrder_query : QueryOrder threeMinutes threeFlats threeOrder :=
  ⟨threeOrder_perm, threeOrder_sorted⟩

theorem accepts_admitted (c : Cluster) : Admitted "k".toList 0 (accepts c) threeDb [] :=
  ⟨⟨"(token)".toList, .admin, true⟩, rfl, rfl⟩

/-- The flat with a filter is accepted alone. -/
theorem accept_iff_ha :
    ClaimsExactly (threeFlats.frames.rows.filter fun f => f.equip.filterId ≠ none) threeDb
      (postFlatSetOf (fun _ => none) threeMinutes.instant "k".toList 0 (accepts haCluster) threeDb []).store :=
  (accept_iff threeMinutes (fun _ => none) none (accepts_admitted haCluster) threeFlats_stored
    threeOrder_query (by decide) rfl (by decide)).mpr ⟨by decide, by decide⟩

/-- The set for the other two takes it as well. -/
theorem accept_takes_bystander :
    (plainCluster, threeFlats.frames.rows.filter fun f => f.equip.filterId = none) ∈
      (suggestFlats (gapSeconds none) (threeOrder.filterMap (flatRow threeMinutes threeFlats))).zip
        (threeOrder.splitBy (sameSet threeMinutes.instant (gapSeconds none))) ∧
    ¬ClaimsExactly (threeFlats.frames.rows.filter fun f => f.equip.filterId = none) threeDb
      (postFlatSetOf (fun _ => none) threeMinutes.instant "k".toList 0 (accepts plainCluster) threeDb
        []).store := by
  refine ⟨by decide, fun h => ?_⟩
  exact absurd h.2 (by decide)

end Three

end StarBase.Api
