import StarBase.Api.Users
import StarBase.Index.FlatSets

/-!
# Equipment requests

The routes that create, change and delete rigs, flat sets and pins, and what sequences of them do
to the references to flat sets.

* `postRig`, `patchRig`, `deleteRig` — the rigs, with the frames they own;
* `postFlatSet`, `patchFlatSet`, `deleteFlatSet`, `postFlatPin`, `deleteFlatPin` — the flat sets
  and the pins;
* `postFlatSet_keeps` and its like — **PROVED**: no route but the deletion of a rig leaves a
  dangling reference, whatever the server replies;
* `deleteRig_noDangling_iff` — **PROVED**: the deletion leaves none exactly if it is not carried out
  or the rig's flat sets are unused;
* `noDangling_always_iff` — **PROVED**: the runs without dangling references, exactly.

Of cameras, sites and saved queries there are only the ids that the foreign keys ask for; the requests
that create sites are left out.
-/

namespace StarBase.Api

open Relational Statements Extract

/-! ### Reading the body -/

/-- `get<long long>()`. -/
def getInt : Json → Except Thrown Int
  | .int i => .ok (Json.longOfInt i)
  | .float neg num den => .ok (Json.longOfFloat neg num den)
  | .bool b => .ok (if b then 1 else 0)
  | j => .error (Json.typeError "number".toList j)

/-- `get<double>()`. -/
def getReal : Json → Except Thrown ℚ
  | .int i => .ok i
  | .float neg num den => .ok (if neg then -(num / den) else num / den)
  | j => .error (Json.typeError "number".toList j)

/-- `body.contains(key)`, with `get` of the member. -/
def given {α : Type} (get : Json → Except Thrown α) (body : Json) (key : Str) :
    Except Thrown (Option α) :=
  match body.at? key with
  | none => .ok none
  | some v => (get v).map some

/-- A member that is a non-empty string. -/
def textMember (body : Json) (key : Str) : Option Str :=
  match body.at? key with
  | some (.str s) => if s = [] then none else some s
  | _ => none

/-- A member that clears a column when it is null or empty. -/
def clearable (v : Json) : Except Thrown (Option Str) :=
  match v with
  | .null => .ok none
  | v => v.getStr.map fun s => if s = [] then none else some s

/-- An id, or none for what is not positive. -/
def positive (i : Int) : Option ℕ := if 0 < i then some i.toNat else none

/-- `std::stoi` of the digits of a path. -/
def stoi (id : ℕ) : Except Thrown ℕ :=
  if id < 2 ^ 31 then .ok id else .error (.std "stoi".toList)

section Server

variable [Host] {W : Type}

/-! ### Statements of a route -/

def queryOn {α : Type} (f : W → α) : Route W α := query fun d => f d.rest

def execOn (f : W → Except Thrown W) : Route W Unit :=
  exec fun d => (f d.rest).map fun w => { d with rest := w }

/-- A statement with `affected_rows()` after it. -/
def affecting (count : W → ℕ) (f : W → Except Thrown W) : Route W ℕ := do
  let d ← (get : Route W (ApiDb W))
  execOn f
  pure (count d.rest)

/-- The answer to a statement the server refuses. -/
def refusal (e : Thrown) : Response :=
  match e with
  | .std what => sendError (if e = duplicateError then 409 else 500) what
  | .json what => sendError 500 what

/-- One statement with its own `catch`: a refusal is the response. -/
def orRefuse (m : Route W Unit) (k : Route W Response) : Route W Response := do
  match ← tryCatch (m >>= fun _ => pure none) fun e => pure (some (refusal e)) with
  | some r => pure r
  | none => k

/-! ### Rigs -/

/-- `camera_id = cam AND focal_len_mm BETWEEN fmin AND fmax`. -/
def ownedFrame (cam : ℕ) (fmin fmax : ℚ) (f : FrameRow) : Bool :=
  f.equip.cameraId = some cam && match f.cols.focalLenMm with
    | some (.fin q) =>
      decide (sixDecimals fmin ≤ storedDecimal 1 q) && decide (storedDecimal 1 q ≤ sixDecimals fmax)
    | _ => false

/-- An active rig of the camera whose focal range overlaps, other than the one given. -/
def rigOverlapWarning (cam : ℕ) (fmin fmax : ℚ) (other : ℕ) (db : EquipDb) : List (Str × Json) :=
  match db.rigs.rows.find? fun r => r.active && r.cameraId = cam && r.id ≠ other &&
      decide (r.focalMinMm ≤ sixDecimals fmax) && decide (sixDecimals fmin ≤ r.focalMaxMm) with
  | none => []
  | some r => [("warning".toList, .str ("focal range overlaps active rig '".toList ++ r.name ++
      ("' on the same camera; rig resolution (first match) is non-deterministic where they " ++
        "overlap").toList))]

/-- The id of a telescope, which is created if it is new. -/
def telescopeNamed (name : Str) : Route EquipDb (Option ℕ) := do
  execOn fun db => .ok (db.insertTelescope name)
  queryOn fun db => (db.telescopes.get (Host.collate name)).map NamedRow.id

/-- `POST /equipment/rigs`. -/
def postRig (token : Str) (now : Int) (req : Request) : Route EquipDb Response :=
  requireAdmin token now req <| handled do
    let body ← parseBody req
    let name ← liftE (body.valueStr "name".toList [])
    let cam ← liftE (Json.value getInt body "camera_id".toList 0)
    let fmin ← liftE (Json.value getReal body "focal_min_mm".toList 0)
    let fmax ← liftE (Json.value getReal body "focal_max_mm".toList 0)
    if name = [] ∨ cam ≤ 0 then pure (sendError 400 "name and camera_id are required".toList)
    else if fmin ≤ 0 ∨ fmax < fmin then pure (sendError 400 "focal range is invalid".toList)
    else do
      connect
      let tel ← (match textMember body "telescope".toList with
        | some t => telescopeNamed t
        | none => pure none)
      let site ← liftE (Json.value getInt body "site_id".toList 0)
      let d ← (get : Route EquipDb (ApiDb EquipDb))
      let id := d.rest.rigs.next
      orRefuse (execOn (EquipDb.insertRig name cam.toNat tel (positive site) fmin fmax)) do
        let owned := ownedFrame cam.toNat fmin fmax
        let assigned ← affecting (fun db => db.frames.rows.countP owned)
          (EquipDb.assignRig owned id (positive site))
        let warning ← queryOn (rigOverlapWarning cam.toNat fmin fmax id)
        pure (sendJson (.obj ([("id".toList, .int id), ("name".toList, .str name),
          ("assigned".toList, .int assigned)] ++ warning)) 201)

/-- The assignments a `PATCH` of a rig collects. -/
structure RigPatch where
  name : Option Str := none
  cameraId : Option ℕ := none
  focalMin : Option ℚ := none
  focalMax : Option ℚ := none
  telescopeId : Option (Option ℕ) := none
  siteId : Option (Option ℕ) := none
  activeFlatSetId : Option (Option ℕ) := none

def RigPatch.isEmpty (p : RigPatch) : Bool :=
  p.name.isNone && p.cameraId.isNone && p.focalMin.isNone && p.focalMax.isNone &&
    p.telescopeId.isNone && p.siteId.isNone && p.activeFlatSetId.isNone

def RigPatch.apply (p : RigPatch) (r : Rig) : Rig :=
  { r with
    name := p.name.getD r.name
    cameraId := p.cameraId.getD r.cameraId
    focalMinMm := (p.focalMin.map (storedDecimal 1)).getD r.focalMinMm
    focalMaxMm := (p.focalMax.map (storedDecimal 1)).getD r.focalMaxMm
    telescopeId := p.telescopeId.getD r.telescopeId
    siteId := p.siteId.getD r.siteId
    activeFlatSetId := p.activeFlatSetId.getD r.activeFlatSetId }

/-- The telescope of a `PATCH`: a name that is created if new, or empty to clear it. -/
def patchTelescope (body : Json) : Route EquipDb (Option (Option ℕ)) :=
  match body.at? "telescope".toList with
  | some (.str name) =>
    if name = [] then pure (some none)
    else do
      let tel ← telescopeNamed name
      pure (tel.map some)
  | _ => pure none

/-- The active flat set of a `PATCH`: not positive clears it, else it must be the rig's own. -/
def patchActive (id : ℕ) (body : Json) (k : Option (Option ℕ) → Route EquipDb Response) :
    Route EquipDb Response := do
  match (← liftE (given getInt body "active_flat_set_id".toList)).map positive with
  | none => k none
  | some none => k (some none)
  | some (some afs) =>
    let known ← queryOn fun db => db.flatSets.rows.any fun s => s.id = afs && s.rigId = id
    if known then k (some (some afs))
    else pure (sendError 400 "flat set does not belong to this rig".toList)

/-- The frames after a `PATCH`: the membership anew when camera or range were given, and the rig's
site when it has one and either was given. -/
def restamp (id : ℕ) (cam : ℕ) (fmin fmax : ℚ) (site : Option ℕ) (membership siteGiven : Bool) :
    Route EquipDb ℕ := do
  let owned := ownedFrame cam fmin fmax
  let reassigned ← (if membership && 0 < cam then do
      execOn fun db => .ok (db.dropMembership id)
      affecting (fun db => db.frames.rows.countP owned) (EquipDb.assignRig owned id none)
    else pure 0)
  (match site with
    | some s => if membership || siteGiven then execOn (EquipDb.stampSite id s) else pure ()
    | none => pure ())
  pure reassigned

/-- `PATCH /equipment/rigs/:id`. -/
def patchRig (token : Str) (now : Int) (id : ℕ) (req : Request) : Route EquipDb Response :=
  requireAdmin token now req <| handled do
    let body ← parseBody req
    connect
    match ← queryOn fun db => db.rigs.rows.find? fun r => r.id = id with
    | none => pure (sendError 404 "no such rig".toList)
    | some cur => do
      let name ← liftE (given Json.getStr body "name".toList)
      let camera := (← liftE (given getInt body "camera_id".toList)).bind positive
      let fmin ← liftE (given getReal body "focal_min_mm".toList)
      let fmax ← liftE (given getReal body "focal_max_mm".toList)
      let membership := camera.isSome || fmin.isSome || fmax.isSome
      let cam := camera.getD cur.cameraId
      let lo := fmin.getD cur.focalMinMm
      let hi := fmax.getD cur.focalMaxMm
      if hi < lo then pure (sendError 400 "focal range is invalid".toList)
      else do
        let tel ← patchTelescope body
        let site := (← liftE (given getInt body "site_id".toList)).map positive
        patchActive id body fun active => do
          let p : RigPatch := ⟨name, camera, fmin, fmax, tel, site, active⟩
          if p.isEmpty then pure (sendError 400 "nothing to update".toList)
          else orRefuse (execOn (EquipDb.updateRig id p.apply fun _ => rfl)) do
            let reassigned ← restamp id cam lo hi (site.getD cur.siteId) membership site.isSome
            let updated ← liftE (stoi id)
            let warning ← queryOn (rigOverlapWarning cam lo hi id)
            pure (sendJson (.obj ([("updated".toList, .int updated),
              ("reassigned".toList, .int reassigned)] ++ warning)) 200)

/-- `DELETE /equipment/rigs/:id`. -/
def deleteRig (token : Str) (now : Int) (id : ℕ) (req : Request) : Route EquipDb Response :=
  requireAdmin token now req <| handled do
    connect
    let freed ← affecting (fun db => db.frames.rows.countP fun f => f.equip.rigId = some id)
      fun db => .ok (db.dropMembership id)
    execOn fun db => .ok (db.deleteRig id)
    let deleted ← liftE (stoi id)
    pure (sendJson (.obj [("deleted".toList, .int deleted), ("freed".toList, .int freed)]) 200)

/-! ### Flat sets -/

def FlatSource.ofText (s : Str) : Option FlatSource :=
  if Host.collate s = Host.collate "inferred".toList then some .inferred
  else if Host.collate s = Host.collate "header".toList then some .header
  else if Host.collate s = Host.collate "manual".toList then some .manual
  else none

def newFlatSet (rig : ℕ) (filter : Option ℕ) (label : Str) (source : FlatSource) (start stop : Str)
    (validFrom validTo : Option Str) : RowMaker flatSetKeying (rig, Host.collate label) where
  make id :=
    { id := id
      rigId := rig
      filterId := filter
      label := label
      source := source
      capturedNight := none
      capturedStartUtc := some start
      capturedEndUtc := some stop
      frameCount := 0
      validFrom := validFrom
      validTo := validTo
      notes := none }
  id_make _ := rfl
  key_make _ := rfl

/-- `t BETWEEN start AND stop`, with the instants the server reads in the texts. -/
def between (instant : Str → Option Micros) (start stop t : Str) : Bool :=
  match instant start, instant t, instant stop with
  | some a, some x, some b => decide (a ≤ x) && decide (x ≤ b)
  | _, _, _ => false

/-- The unclaimed flats of a rig in a window.  A master flat would count, but `master_of` is never
written. -/
def claimable (instant : Str → Option Micros) (rig : ℕ) (filter : Option ℕ) (start stop : Str)
    (f : FrameRow) : Bool :=
  f.equip.rigId = some rig && f.flatSetId = none && f.cols.imageType = .flat &&
    (filter = none || f.equip.filterId = filter) &&
    f.cols.dateObsUtc.any (between instant start stop)

/-- `SELECT MIN(session_night) FROM frames WHERE flat_set_id = i`. -/
def firstNight (i : ℕ) (db : EquipDb) : Option Str :=
  (db.frames.rows.filter fun f => f.flatSetId = some i).foldl (fun least f =>
    match least, f.cols.sessionNight with
    | some a, some b => if b < a then some b else some a
    | none, b => b
    | a, none => a) none

/-- What follows the insertion of a flat set: it gets its flats, their number and first night, and
becomes its rig's active set if that is asked for. -/
def claimFlats (claimed : FrameRow → Bool) (rig id : ℕ) (label : Str) (body : Json) :
    Route EquipDb Response := do
  let assigned ← affecting (fun db => db.frames.rows.countP claimed)
    fun db => .ok (db.assignFlatSet claimed (some id))
  execOn fun db => .ok (db.countFlatSet id assigned (firstNight id db))
  let active ← liftE (body.valueBool "set_active".toList false)
  (if active then execOn fun db => .ok (db.activate (fun r => r.id = rig) (some id)) else pure ())
  pure (sendJson (.obj [("id".toList, .int id), ("label".toList, .str label),
    ("assigned".toList, .int assigned)]) 201)

/-- `POST /equipment/flat-sets`. -/
def postFlatSet (instant : Str → Option Micros) (token : Str) (now : Int) (req : Request) :
    Route EquipDb Response :=
  requireAdmin token now req <| handled do
    let body ← parseBody req
    let rig ← liftE (Json.value getInt body "rig_id".toList 0)
    let label ← liftE (body.valueStr "label".toList [])
    let start ← liftE (body.valueStr "start_utc".toList [])
    let stop ← liftE (body.valueStr "end_utc".toList [])
    if rig ≤ 0 ∨ label = [] ∨ start = [] ∨ stop = [] then
      pure (sendError 400 "rig_id, label, start_utc and end_utc are required".toList)
    else do
      let filter := positive (← liftE (Json.value getInt body "filter_id".toList 0))
      connect
      let source ← liftE (body.valueStr "source".toList "inferred".toList)
      let d ← (get : Route EquipDb (ApiDb EquipDb))
      let id := d.rest.flatSets.next
      orRefuse (execOn fun db => match FlatSource.ofText source with
          | none => .error dataError
          | some src => db.insertFlatSet (newFlatSet rig.toNat filter label src start stop
              (textMember body "valid_from".toList) (textMember body "valid_to".toList))) do
        claimFlats (claimable instant rig.toNat filter start stop) rig.toNat id label body

/-- The assignments a `PATCH` of a flat set collects. -/
structure FlatSetPatch where
  label : Option Str := none
  notes : Option (Option Str) := none
  validFrom : Option (Option Str) := none
  validTo : Option (Option Str) := none

def FlatSetPatch.isEmpty (p : FlatSetPatch) : Bool :=
  p.label.isNone && p.notes.isNone && p.validFrom.isNone && p.validTo.isNone

def FlatSetPatch.apply (p : FlatSetPatch) (s : FlatSet) : FlatSet :=
  { s with
    label := p.label.getD s.label
    notes := p.notes.getD s.notes
    validFrom := p.validFrom.getD s.validFrom
    validTo := p.validTo.getD s.validTo }

/-- A member that is null or a string. -/
def nullable (v : Json) : Except Thrown (Option Str) :=
  match v with
  | .null => .ok none
  | v => v.getStr.map some

/-- `PATCH /equipment/flat-sets/:id`. -/
def patchFlatSet (token : Str) (now : Int) (id : ℕ) (req : Request) : Route EquipDb Response :=
  requireAdmin token now req <| handled do
    let body ← parseBody req
    connect
    let known ← queryOn fun db => db.flatSets.rows.any fun s => s.id = id
    if known = false then pure (sendError 404 "no such flat set".toList)
    else do
      let label ← liftE (given Json.getStr body "label".toList)
      if label = some [] then pure (sendError 400 "label cannot be empty".toList)
      else do
        let notes ← liftE (given nullable body "notes".toList)
        let validFrom ← liftE (given clearable body "valid_from".toList)
        let validTo ← liftE (given clearable body "valid_to".toList)
        let p : FlatSetPatch := ⟨label, notes, validFrom, validTo⟩
        if p.isEmpty then pure (sendError 400 "nothing to update".toList)
        else orRefuse (execOn (EquipDb.updateFlatSet id p.apply (fun _ => rfl) fun _ => rfl)) do
          let updated ← liftE (stoi id)
          pure (sendJson (.obj [("updated".toList, .int updated)]) 200)

/-- `DELETE /equipment/flat-sets/:id`. -/
def deleteFlatSet (token : Str) (now : Int) (id : ℕ) (req : Request) : Route EquipDb Response :=
  requireAdmin token now req <| handled do
    connect
    let freed ← affecting (fun db => db.frames.rows.countP fun f => f.flatSetId = some id)
      fun db => .ok (db.assignFlatSet (fun f => f.flatSetId = some id) none)
    execOn fun db => .ok (db.activate (fun r => r.activeFlatSetId = some id) none)
    execOn fun db => .ok (db.deleteFlatSet id)
    let deleted ← liftE (stoi id)
    pure (sendJson (.obj [("deleted".toList, .int deleted), ("freed".toList, .int freed)]) 200)

/-! ### Pins -/

/-- The scope of a new pin, or the answer that refuses it. -/
def pinScope (body : Json) (scope : Str) : Except Thrown (Except Response PinScope) :=
  if scope = "rig_night".toList then do
    let rig ← Json.value getInt body "rig_id".toList 0
    let night ← body.valueStr "session_night".toList []
    if rig ≤ 0 ∨ night = [] then
      .ok (.error (sendError 400 "rig_id and session_night are required".toList))
    else .ok (.ok (.rigNight rig.toNat night))
  else if scope = "saved_query".toList then do
    let q ← Json.value getInt body "saved_query_id".toList 0
    if q ≤ 0 then .ok (.error (sendError 400 "saved_query_id is required".toList))
    else .ok (.ok (.savedQuery q.toNat))
  else .ok (.error (sendError 400 "scope must be rig_night or saved_query".toList))

/-- The statements of a new pin: a saved query's earlier pins are deleted first. -/
def insertPin (set : ℕ) (scope : PinScope) : Route EquipDb Unit :=
  match scope with
  | .rigNight _ _ => execOn (EquipDb.putPin set scope)
  | .savedQuery _ => do
    execOn fun db => .ok (db.deletePins fun p => p.scope = scope)
    execOn (EquipDb.putPin set scope)

/-- `POST /equipment/flat-pins`. -/
def postFlatPin (token : Str) (now : Int) (req : Request) : Route EquipDb Response :=
  requireAdmin token now req <| handled do
    let body ← parseBody req
    let set ← liftE (Json.value getInt body "flat_set_id".toList 0)
    let scope ← liftE (body.valueStr "scope".toList [])
    if set ≤ 0 then pure (sendError 400 "flat_set_id is required".toList)
    else do
      connect
      let known ← queryOn fun db => db.flatSets.rows.any fun s => s.id = set.toNat
      if known = false then pure (sendError 404 "no such flat set".toList)
      else do
        match ← liftE (pinScope body scope) with
        | .error r => pure r
        | .ok scope => do
          insertPin set.toNat scope
          pure (sendJson (.obj [("ok".toList, .bool true)]) 201)

/-- `DELETE /equipment/flat-pins/:id`. -/
def deleteFlatPin (token : Str) (now : Int) (id : ℕ) (req : Request) : Route EquipDb Response :=
  requireAdmin token now req <| handled do
    connect
    execOn fun db => .ok (db.deletePins fun p => p.id = id)
    let deleted ← liftE (stoi id)
    pure (sendJson (.obj [("deleted".toList, .int deleted)]) 200)

/-! ### What the routes keep -/

/-- No reference to a flat set dangles. -/
def NoDangling (d : ApiDb EquipDb) : Prop := d.rest.NoDangling

section Constructs

variable {P : ApiDb W → Prop}

theorem keeps_requireAdmin {token : Str} {now : Int} {req : Request} {body : Route W Response}
    (h : Keeps P body) : Keeps P (requireAdmin token now req body) := by
  refine keeps_bind (authenticate_readOnly token now req).keeps fun c => ?_
  cases c with
  | none => exact keeps_pure _
  | some c => exact keeps_ite (fun _ => h) fun _ => keeps_pure _

theorem keeps_handled {m : Route W Response} (h : Keeps P m) : Keeps P (handled m) := by
  refine keeps_tryCatch h fun e => ?_
  cases e <;> exact keeps_pure _

theorem keeps_liftE {α : Type} (x : Except Thrown α) : Keeps P (liftE x : Route W α) :=
  (liftE_readOnly x).keeps

theorem keeps_parseBody (req : Request) : Keeps P (parseBody req : Route W Json) :=
  (parseBody_readOnly req).keeps

theorem keeps_connect : Keeps P (connect : Route W Unit) := connect_readOnly.keeps

theorem keeps_get : Keeps P (get : Route W (ApiDb W)) := readOnly_get.keeps

theorem keeps_queryOn {α : Type} (f : W → α) : Keeps P (queryOn f : Route W α) :=
  (readOnly_query _).keeps

theorem execOn_eq_ok {f : W → Except Thrown W} {d t : ApiDb W}
    (h : (f d.rest).map (fun w => { d with rest := w }) = .ok t) :
    ∃ w, f d.rest = .ok w ∧ t = { d with rest := w } := by
  cases hf : f d.rest with
  | error e =>
    rw [hf] at h
    cases h
  | ok w =>
    rw [hf] at h
    cases h
    exact ⟨w, rfl, rfl⟩

theorem ensures_execOn {I : W → Prop} {Q : Except Thrown Unit → W → Prop}
    {f : W → Except Thrown W} (hold : ∀ w e, I w → Q (.error e) w)
    (hnew : ∀ w t r, I w → f w = .ok t → Q r t) :
    Ensures (fun d => I d.rest) (execOn f) fun r d => Q r d.rest := by
  refine ensures_exec (fun d e hd => hold _ _ hd) fun d t r hd ht => ?_
  obtain ⟨w, hw, rfl⟩ := execOn_eq_ok ht
  exact hnew _ _ _ hd hw

/-- Where a route stands that goes on after a statement which cannot be refused. -/
theorem bind_execOn_store {α : Type} {f : W → W} {k : Unit → Route W α} {d : ApiDb W}
    {rs : List Reply} : ((execOn (fun w => .ok (f w)) >>= k) d rs).store
      = match (nextReply rs).1 with
        | .ok => (k () { d with rest := f d.rest } rs.tail).store
        | .failed => d
        | .lost => { d with rest := f d.rest } := by
  have h := bind_exec_store (k := k) (f := fun d : ApiDb W =>
    (Except.ok (f d.rest) : Except Thrown W).map fun w => { d with rest := w }) (s := d)
    (t := { d with rest := f d.rest }) rfl rs
  exact h

/-- A statement keeps `I`, and leaves `J` when it is carried out and answered. -/
theorem ensures_affecting {I J : W → Prop} {count : W → ℕ} {f : W → Except Thrown W}
    (hf : ∀ w t, I w → f w = .ok t → I t ∧ J t) :
    Ensures (fun d => I d.rest) (affecting count f) fun r d =>
      I d.rest ∧ ∀ n, r = .ok n → J d.rest := by
  refine ensures_bind (M := fun _ d => I d.rest) (readOnly_get.ensures _) (fun _ => ?_)
    fun _ _ h => ⟨h, fun _ hn => by cases hn⟩
  refine ensures_bind (M := fun r d => I d.rest ∧ ∀ u, r = .ok u → J d.rest)
    (ensures_execOn (Q := fun r w => I w ∧ ∀ u, r = .ok u → J w)
      (fun _ _ h => ⟨h, fun _ hu => by cases hu⟩)
      fun w t _ h ht => ⟨(hf w t h ht).1, fun _ _ => (hf w t h ht).2⟩)
    (fun u => ensures_pure fun _ h => ⟨h.1, fun _ _ => h.2 u rfl⟩)
    fun _ _ h => ⟨h.1, fun _ hn => by cases hn⟩

theorem keeps_execOn {I : W → Prop} {f : W → Except Thrown W}
    (hf : ∀ w t, I w → f w = .ok t → I t) : Keeps (fun d => I d.rest) (execOn f) :=
  ensures_execOn (Q := fun _ w => I w) (fun _ _ h => h) fun w t _ h ht => hf w t h ht

theorem keeps_affecting {I : W → Prop} {count : W → ℕ} {f : W → Except Thrown W}
    (hf : ∀ w t, I w → f w = .ok t → I t) : Keeps (fun d => I d.rest) (affecting count f) :=
  keeps_bind keeps_get fun _ => keeps_bind (keeps_execOn hf) fun _ => keeps_pure _

/-- A statement with its own `catch`: what it establishes is there for what follows. -/
theorem ensures_orRefuse {Q R : ApiDb W → Prop} {m : Route W Unit} {k : Route W Response}
    (hm : Ensures P m fun r d => R d ∧ ∀ u, r = .ok u → Q d) (hk : Ensures Q k fun _ d => R d) :
    Ensures P (orRefuse m k) fun _ d => R d := by
  intro s rs hs
  have h := hm s rs hs
  unfold orRefuse
  rw [bind_apply, tryCatch_apply, bind_apply, Done.andThen, Done.andThen, Done.rescue]
  cases hr : (m s rs).result with
  | ok u =>
    rw [hr] at h
    exact hk _ _ (h.2 u rfl)
  | error e => exact h.1

theorem keeps_orRefuse {m : Route W Unit} {k : Route W Response} (hm : Keeps P m)
    (hk : Keeps P k) : Keeps P (orRefuse m k) :=
  ensures_orRefuse (Q := P) (fun s rs hs => ⟨hm s rs hs, fun _ _ => hm s rs hs⟩) hk

end Constructs

theorem telescopeNamed_keeps (name : Str) : Keeps NoDangling (telescopeNamed name) :=
  keeps_bind (keeps_execOn (I := EquipDb.NoDangling) fun _ _ h ht => by cases ht; exact h)
    fun _ => keeps_queryOn _

/-- A statement that cannot be refused. -/
theorem keeps_execOn_ok {f : EquipDb → EquipDb} (hf : ∀ w : EquipDb, w.NoDangling → (f w).NoDangling) :
    Keeps NoDangling (execOn fun w => .ok (f w)) :=
  keeps_execOn (I := EquipDb.NoDangling) fun w _ h ht => by
    cases ht
    exact hf w h

theorem postRig_keeps (token : Str) (now : Int) (req : Request) :
    Keeps NoDangling (postRig token now req) := by
  refine keeps_requireAdmin <| keeps_handled <| keeps_bind (keeps_parseBody _) fun _ =>
    keeps_bind (keeps_liftE _) fun _ => keeps_bind (keeps_liftE _) fun _ =>
      keeps_bind (keeps_liftE _) fun _ => keeps_bind (keeps_liftE _) fun _ =>
        keeps_ite (fun _ => keeps_pure _) fun _ => keeps_ite (fun _ => keeps_pure _) fun _ =>
          keeps_bind keeps_connect fun _ => keeps_bind ?_ fun _ => keeps_bind (keeps_liftE _)
            fun _ => keeps_bind keeps_get fun _ => keeps_orRefuse ?_ <| keeps_bind ?_ fun _ =>
              keeps_bind (keeps_queryOn _) fun _ => keeps_pure _
  · split
    · exact telescopeNamed_keeps _
    · exact keeps_pure _
  · exact keeps_execOn (I := EquipDb.NoDangling) fun _ _ h ht => EquipDb.noDangling_insertRig h ht
  · exact keeps_affecting (I := EquipDb.NoDangling) fun _ _ h ht =>
      EquipDb.noDangling_assignRig h ht

theorem patchTelescope_keeps (body : Json) : Keeps NoDangling (patchTelescope body) := by
  unfold patchTelescope
  split
  · exact keeps_ite (fun _ => keeps_pure _) fun _ =>
      keeps_bind (telescopeNamed_keeps _) fun _ => keeps_pure _
  · exact keeps_pure _

/-- A flat set that a `PATCH` makes active is there when it goes on. -/
theorem patchActive_keeps {id : ℕ} {body : Json} {k : Option (Option ℕ) → Route EquipDb Response}
    (hk : ∀ active : Option (Option ℕ), Ensures
      (fun d => NoDangling d ∧ ∀ v ∈ active, ∀ i ∈ v, i ∈ d.rest.flatSets.ids) (k active)
      fun _ d => NoDangling d) : Keeps NoDangling (patchActive id body k) := by
  refine keeps_bind (keeps_liftE _) fun given => ?_
  rcases given.map positive with _ | _ | afs
  · exact fun d rs hd => hk none d rs ⟨hd, fun v hv => by cases hv⟩
  · exact fun d rs hd => hk (some none) d rs ⟨hd, fun v hv i hi => by cases hv; cases hi⟩
  · refine keeps_bind_ensures (Q := fun known d => known = true → afs ∈ d.rest.flatSets.ids)
      (ensures_query ?_ fun d hd => ⟨hd, fun _ h => by cases h⟩) fun known => ?_
    · intro d hd
      refine ⟨hd, fun known h hk => ?_⟩
      cases h
      obtain ⟨s, hs, hid⟩ := List.any_eq_true.mp hk
      simp only [Bool.and_eq_true, decide_eq_true_eq] at hid
      exact Table.mem_ids.mpr ⟨s, hs, hid.1⟩
    · refine ensures_ite (fun hknown => ?_) fun _ => ensures_pure fun _ hd => hd.1
      refine ensures_mono (hk (some (some afs))) (fun d hd => ⟨hd.1, fun v hv i hi => ?_⟩)
        fun _ _ h => h
      cases hv
      cases hi
      exact hd.2 hknown

theorem restamp_keeps (id cam : ℕ) (fmin fmax : ℚ) (site : Option ℕ) (membership given : Bool) :
    Keeps NoDangling (restamp id cam fmin fmax site membership given) := by
  refine keeps_bind ?_ fun _ => keeps_bind ?_ fun _ => keeps_pure _
  · refine keeps_ite (fun _ => keeps_bind ?_ fun _ => ?_) fun _ => keeps_pure _
    · exact keeps_execOn_ok fun w hw => EquipDb.noDangling_dropMembership hw id
    · exact keeps_affecting (I := EquipDb.NoDangling) fun _ _ h ht =>
        EquipDb.noDangling_assignRig h ht
  · cases site with
    | none => exact keeps_pure _
    | some s =>
      exact keeps_ite (fun _ => keeps_execOn (I := EquipDb.NoDangling)
        fun _ _ h ht => EquipDb.noDangling_stampSite h ht) fun _ => keeps_pure _

theorem patchRig_keeps (token : Str) (now : Int) (id : ℕ) (req : Request) :
    Keeps NoDangling (patchRig token now id req) := by
  refine keeps_requireAdmin <| keeps_handled <| keeps_bind (keeps_parseBody _) fun _ =>
    keeps_bind keeps_connect fun _ => keeps_bind (keeps_queryOn _) fun cur => ?_
  cases cur with
  | none => exact keeps_pure _
  | some cur =>
    refine keeps_bind (keeps_liftE _) fun _ => keeps_bind (keeps_liftE _) fun _ =>
      keeps_bind (keeps_liftE _) fun _ => keeps_bind (keeps_liftE _) fun _ =>
        keeps_ite (fun _ => keeps_pure _) fun _ => keeps_bind (patchTelescope_keeps _) fun _ =>
          keeps_bind (keeps_liftE _) fun _ => patchActive_keeps fun active => ?_
    refine ensures_ite (fun _ => ensures_pure fun _ hd => hd.1) fun _ =>
      ensures_orRefuse (Q := NoDangling) (ensures_execOn
        (I := fun w : EquipDb => w.NoDangling ∧ ∀ v ∈ active, ∀ i ∈ v, i ∈ w.flatSets.ids)
        (Q := fun r (w : EquipDb) => w.NoDangling ∧ ∀ u, r = .ok u → w.NoDangling)
        (fun w e hw => ⟨hw.1, fun _ _ => hw.1⟩) fun w t r hw ht => ?_) ?_
    · have hnd : t.NoDangling := by
        refine EquipDb.noDangling_updateRig hw.1 (fun r j hj => ?_) ht
        cases active with
        | none => exact Or.inl hj
        | some v => exact Or.inr (hw.2 v rfl j hj)
      exact ⟨hnd, fun _ _ => hnd⟩
    · exact keeps_bind (restamp_keeps _ _ _ _ _ _ _) fun _ => keeps_bind (keeps_liftE _) fun _ =>
        keeps_bind (keeps_queryOn _) fun _ => keeps_pure _

/-- Flats may be claimed for a set that is there. -/
theorem claimFlats_keeps (claimed : FrameRow → Bool) (rig id : ℕ) (label : Str) (body : Json) :
    Keeps (fun d => d.rest.NoDangling ∧ id ∈ d.rest.flatSets.ids)
      (claimFlats claimed rig id label body) := by
  refine keeps_bind (keeps_affecting (I := fun w : EquipDb => w.NoDangling ∧ id ∈ w.flatSets.ids)
    fun w t hw ht => ?_) fun assigned => keeps_bind (keeps_execOn
      (I := fun w : EquipDb => w.NoDangling ∧ id ∈ w.flatSets.ids) fun w t hw ht => ?_) fun _ =>
        keeps_bind (keeps_liftE _) fun active => keeps_bind (keeps_ite (fun _ => keeps_execOn
          (I := fun w : EquipDb => w.NoDangling ∧ id ∈ w.flatSets.ids) fun w t hw ht => ?_)
          fun _ => keeps_pure _) fun _ => keeps_pure _
  · cases ht
    exact ⟨EquipDb.noDangling_assignFlatSet hw.1 fun i hi => by cases hi; exact hw.2, hw.2⟩
  · cases ht
    refine ⟨EquipDb.noDangling_countFlatSet hw.1 _ _ _, ?_⟩
    show _ ∈ (w.flatSets.modify _ _).ids
    rw [Table.ids_modify]
    exact hw.2
  · cases ht
    exact ⟨EquipDb.noDangling_activate hw.1 fun i hi => by cases hi; exact hw.2, hw.2⟩

/-- The new flat set is there when its flats are claimed for it. -/
theorem postFlatSet_keeps (instant : Str → Option Micros) (token : Str) (now : Int)
    (req : Request) : Keeps NoDangling (postFlatSet instant token now req) := by
  refine keeps_requireAdmin <| keeps_handled <| keeps_bind (keeps_parseBody _) fun _ =>
    keeps_bind (keeps_liftE _) fun rig => keeps_bind (keeps_liftE _) fun label =>
      keeps_bind (keeps_liftE _) fun start => keeps_bind (keeps_liftE _) fun stop =>
        keeps_ite (fun _ => keeps_pure _) fun _ => keeps_bind (keeps_liftE _) fun _ =>
          keeps_bind keeps_connect fun _ => keeps_bind (keeps_liftE _) fun source => ?_
  intro d rs hd
  rw [bind_apply, get_apply, andThen_ok]
  refine ensures_orRefuse (P := fun t => t.rest = d.rest) (R := NoDangling)
    (Q := fun t => t.rest.NoDangling ∧ d.rest.flatSets.next ∈ t.rest.flatSets.ids)
    (ensures_execOn (I := fun w => w = d.rest) (Q := fun r (w : EquipDb) => w.NoDangling ∧
      ∀ u, r = .ok u → w.NoDangling ∧ d.rest.flatSets.next ∈ w.flatSets.ids)
      (fun w e hw => ⟨hw ▸ hd, fun _ h => by cases h⟩) fun w t r hw ht => ?_)
    (ensures_mono (claimFlats_keeps _ _ _ _ _).ensures (fun _ h => h) fun _ _ h => h.1) d rs rfl
  subst hw
  split at ht
  · cases ht
  · have h := EquipDb.noDangling_insertFlatSet hd ht
    exact ⟨h.1, fun _ _ => h⟩

theorem patchFlatSet_keeps (token : Str) (now : Int) (id : ℕ) (req : Request) :
    Keeps NoDangling (patchFlatSet token now id req) := by
  refine keeps_requireAdmin <| keeps_handled <| keeps_bind (keeps_parseBody _) fun _ =>
    keeps_bind keeps_connect fun _ => keeps_bind (keeps_queryOn _) fun _ =>
      keeps_ite (fun _ => keeps_pure _) fun _ => keeps_bind (keeps_liftE _) fun _ =>
        keeps_ite (fun _ => keeps_pure _) fun _ => keeps_bind (keeps_liftE _) fun _ =>
          keeps_bind (keeps_liftE _) fun _ => keeps_bind (keeps_liftE _) fun _ =>
            keeps_ite (fun _ => keeps_pure _) fun _ => keeps_orRefuse ?_ <|
              keeps_bind (keeps_liftE _) fun _ => keeps_pure _
  exact keeps_execOn (I := EquipDb.NoDangling) fun _ _ h ht => EquipDb.noDangling_updateFlatSet h ht

/-- Both references are cleared before the set goes. -/
theorem deleteFlatSet_keeps (token : Str) (now : Int) (id : ℕ) (req : Request) :
    Keeps NoDangling (deleteFlatSet token now id req) := by
  refine keeps_requireAdmin <| keeps_handled <| keeps_bind keeps_connect fun _ =>
    keeps_bind_ensures (P := NoDangling)
      (Q := fun _ d => ∀ f ∈ d.rest.frames.rows, f.flatSetId ≠ some id)
      (ensures_affecting (I := EquipDb.NoDangling)
        (J := fun w : EquipDb => ∀ f ∈ w.frames.rows, f.flatSetId ≠ some id) fun w t hw ht => ?_)
      fun freed => ensures_bind (M := fun r d => NoDangling d ∧ ∀ u, r = .ok u → ¬ d.rest.Refers id)
        (ensures_execOn (I := fun w : EquipDb => w.NoDangling ∧ ∀ f ∈ w.frames.rows, f.flatSetId ≠ some id)
          (Q := fun r (w : EquipDb) => w.NoDangling ∧ ∀ u, r = .ok u → ¬ w.Refers id)
          (fun w e hw => ⟨hw.1, fun _ h => by cases h⟩) fun w t r hw ht => ?_)
        (fun u => ensures_bind (M := fun _ d => NoDangling d) (ensures_mono (ensures_execOn
          (I := fun w : EquipDb => w.NoDangling ∧ ¬ w.Refers id) (Q := fun _ w => w.NoDangling)
          (fun w e hw => hw.1) fun w t r hw ht => ?_) (fun d hd => ⟨hd.1, hd.2 u rfl⟩)
          fun _ _ h => h)
          (fun _ => keeps_bind (keeps_liftE _) fun _ => keeps_pure _) fun _ _ h => h)
        fun _ _ h => h.1
  · cases ht
    refine ⟨EquipDb.noDangling_assignFlatSet hw fun i hi => (by cases hi), fun f hf => ?_⟩
    obtain ⟨g, hg, rfl⟩ := List.mem_map.mp hf
    split
    · intro h
      cases h
    · next hne => simpa using hne
  · cases ht
    refine ⟨EquipDb.noDangling_activate hw.1 fun i hi => (by cases hi), fun _ _ hrefers => ?_⟩
    rcases hrefers with ⟨f, hf, hi⟩ | ⟨r, hr, hi⟩
    · exact hw.2 f hf hi
    · obtain ⟨q, hq, rfl⟩ := List.mem_map.mp hr
      split at hi
      · cases hi
      · next hne => exact hne (decide_eq_true hi)
  · cases ht
    exact EquipDb.noDangling_deleteFlatSet hw.1 hw.2

theorem insertPin_keeps (set : ℕ) (scope : PinScope) : Keeps NoDangling (insertPin set scope) := by
  have hput : Keeps NoDangling (execOn (EquipDb.putPin set scope)) :=
    keeps_execOn (I := EquipDb.NoDangling) fun _ _ h ht => EquipDb.noDangling_putPin h ht
  cases scope with
  | rigNight _ _ => exact hput
  | savedQuery _ => exact keeps_bind (keeps_execOn_ok fun _ h => h) fun _ => hput

theorem postFlatPin_keeps (token : Str) (now : Int) (req : Request) :
    Keeps NoDangling (postFlatPin token now req) := by
  refine keeps_requireAdmin <| keeps_handled <| keeps_bind (keeps_parseBody _) fun _ =>
    keeps_bind (keeps_liftE _) fun _ => keeps_bind (keeps_liftE _) fun _ =>
      keeps_ite (fun _ => keeps_pure _) fun _ => keeps_bind keeps_connect fun _ =>
        keeps_bind (keeps_queryOn _) fun _ => keeps_ite (fun _ => keeps_pure _) fun _ =>
          keeps_bind (keeps_liftE _) fun scope => ?_
  cases scope with
  | error r => exact keeps_pure _
  | ok scope => exact keeps_bind (insertPin_keeps _ _) fun _ => keeps_pure _

theorem deleteFlatPin_keeps (token : Str) (now : Int) (id : ℕ) (req : Request) :
    Keeps NoDangling (deleteFlatPin token now id req) :=
  keeps_requireAdmin <| keeps_handled <| keeps_bind keeps_connect fun _ =>
    keeps_bind (keeps_execOn_ok fun _ h => h) fun _ => keeps_bind (keeps_liftE _) fun _ =>
      keeps_pure _

/-! ### The deletion of a rig -/

/-- The admin gate lets the request through. -/
def Admitted (token : Str) (now : Int) (req : Request) (d : ApiDb W) (rs : List Reply) : Prop :=
  ∃ c : Caller, (authenticate token now req d rs).result = .ok (some c) ∧ c.role = .admin

theorem requireAdmin_store_of_admitted {token : Str} {now : Int} {req : Request} {d : ApiDb W}
    {rs : List Reply} {body : Route W Response} (h : Admitted token now req d rs) :
    Healthy (authStatements token req) rs ∧ (requireAdmin token now req body d rs).store
      = (body d (rs.drop (authStatements token req))).store := by
  obtain ⟨c, hc, hadmin⟩ := h
  obtain ⟨hh, hrest⟩ := authenticate_replies hc
  refine ⟨hh, ?_⟩
  have hd := authenticate_readOnly token now req d rs
  unfold requireAdmin
  rw [bind_apply, Done.andThen, hc]
  dsimp only
  rw [if_pos hadmin, hd, hrest]

theorem requireAdmin_store_of_not_admitted {token : Str} {now : Int} {req : Request} {d : ApiDb W}
    {rs : List Reply} {body : Route W Response} (h : ¬ Admitted token now req d rs) :
    (requireAdmin token now req body d rs).store = d := by
  have hd := authenticate_readOnly token now req d rs
  unfold requireAdmin
  rw [bind_apply, Done.andThen]
  cases hres : (authenticate token now req d rs).result with
  | error e => exact hd
  | ok c =>
    cases c with
    | none => exact hd
    | some c =>
      dsimp only
      rw [if_neg fun hc => h ⟨c, hres, hc⟩]
      exact hd

/-- The deletion of a rig is carried out: the gate lets the request through, its statements before
the `DELETE` are answered, and that one is not refused. -/
def RigDeleted (token : Str) (now : Int) (req : Request) (d : ApiDb W) (rs : List Reply) : Prop :=
  Admitted token now req d rs ∧ Healthy (authStatements token req + 2) rs ∧
    (nextReply (rs.drop (authStatements token req + 2))).1 ≠ .failed

/-- Where the statements of a rig's deletion leave the tables. -/
theorem deleteRig_body_store (id : ℕ) (d : ApiDb EquipDb) (rs : List Reply) :
    (handled (do
        connect
        let freed ← affecting (fun db => db.frames.rows.countP fun f => f.equip.rigId = some id)
          fun db => .ok (db.dropMembership id)
        execOn fun db => .ok (db.deleteRig id)
        let deleted ← liftE (stoi id)
        pure (sendJson (.obj [("deleted".toList, .int deleted), ("freed".toList, .int freed)]) 200))
      d rs).store
      = if (nextReply rs).1 = .ok ∧ (nextReply rs.tail).1 = .ok ∧
            (nextReply rs.tail.tail).1 ≠ .failed then
          { d with rest := (d.rest.dropMembership id).deleteRig id }
        else if (nextReply rs).1 = .ok ∧ (nextReply rs.tail).1 ≠ .failed then
          { d with rest := d.rest.dropMembership id }
        else d := by
  rw [handled_store, connect, bind_query_store]
  cases h₀ : (nextReply rs).1 with
  | failed => simp
  | lost => simp
  | ok =>
    simp only [affecting, bind_assoc, pure_bind, if_true, true_and]
    rw [bind_apply, get_apply, andThen_ok, bind_execOn_store]
    cases h₁ : (nextReply rs.tail).1 with
    | failed => simp
    | lost => simp
    | ok =>
      dsimp only
      rw [bind_execOn_store]
      cases h₂ : (nextReply rs.tail.tail).1 with
      | failed => simp
      | lost => simp
      | ok =>
        have hend : ∀ (t : ApiDb EquipDb) (rs : List Reply) (k : ℕ → Response),
            ((liftE (stoi id) >>= fun i => pure (k i) : Route EquipDb Response) t rs).store = t := by
          intro t rs k
          rw [bind_pure_store]
          exact liftE_readOnly (stoi id) t rs
        refine (hend _ _ _).trans ?_
        simp

/-- The deletion of a rig keeps the references sound exactly if it is not carried out or the rig's
flat sets are unused. -/
theorem deleteRig_noDangling_iff {token : Str} {now : Int} {id : ℕ} {req : Request}
    {d : ApiDb EquipDb} {rs : List Reply} (hd : NoDangling d) :
    NoDangling (deleteRig token now id req d rs).store ↔
      (RigDeleted token now req d rs → d.rest.SetsUnused id) := by
  by_cases hadm : Admitted token now req d rs
  · obtain ⟨hh, hstore⟩ := requireAdmin_store_of_admitted hadm
    have hdropped : (d.rest.dropMembership id).NoDangling := EquipDb.noDangling_dropMembership hd id
    generalize hrs : rs.drop (authStatements token req) = rs' at hstore
    have hrun : RigDeleted token now req d rs ↔ (nextReply rs').1 = .ok ∧
        (nextReply rs'.tail).1 = .ok ∧ (nextReply rs'.tail.tail).1 ≠ .failed := by
      unfold RigDeleted
      rw [healthy_add_iff, ← List.drop_drop, hrs, healthy_succ_iff, healthy_one_iff]
      simp [hadm, hh, ← List.drop_one, List.drop_drop, and_assoc]
    rw [hrun, deleteRig, hstore, deleteRig_body_store]
    split
    · next hdel =>
      have h := EquipDb.noDangling_deleteRig_iff hdropped id
      rw [EquipDb.setsUnused_dropMembership] at h
      exact h.trans ⟨fun h _ => h, fun h => h hdel⟩
    · next hdel =>
      refine iff_of_true ?_ fun h => absurd h hdel
      split
      · exact hdropped
      · exact hd
  · have hstore : (deleteRig token now id req d rs).store = d :=
      requireAdmin_store_of_not_admitted hadm
    rw [hstore]
    exact iff_of_true hd fun h => absurd h.1 hadm

/-! ### Runs of equipment requests -/

/-- An equipment request. -/
inductive EquipOp
  | postRig
  | patchRig (id : ℕ)
  | deleteRig (id : ℕ)
  | postFlatSet
  | patchFlatSet (id : ℕ)
  | deleteFlatSet (id : ℕ)
  | postFlatPin
  | deleteFlatPin (id : ℕ)

/-- A request with the time it is served at and what the server replies to its statements. -/
structure EquipStep where
  op : EquipOp
  req : Request
  now : Int
  replies : List Reply

def EquipStep.route (instant : Str → Option Micros) (token : Str) (st : EquipStep) :
    Route EquipDb Response :=
  match st.op with
  | .postRig => Api.postRig token st.now st.req
  | .patchRig id => Api.patchRig token st.now id st.req
  | .deleteRig id => Api.deleteRig token st.now id st.req
  | .postFlatSet => Api.postFlatSet instant token st.now st.req
  | .patchFlatSet id => Api.patchFlatSet token st.now id st.req
  | .deleteFlatSet id => Api.deleteFlatSet token st.now id st.req
  | .postFlatPin => Api.postFlatPin token st.now st.req
  | .deleteFlatPin id => Api.deleteFlatPin token st.now id st.req

/-- The database after one request. -/
def EquipStep.after (instant : Str → Option Micros) (token : Str) (d : ApiDb EquipDb)
    (st : EquipStep) : ApiDb EquipDb :=
  (st.route instant token d st.replies).store

/-- A request that leaves no reference behind: only the deletion of a rig can, one that is carried
out while a frame or another rig refers to a flat set of the rig. -/
def EquipStep.LeavesNone (token : Str) (d : ApiDb EquipDb) (st : EquipStep) : Prop :=
  match st.op with
  | .deleteRig id => RigDeleted token st.now st.req d st.replies → d.rest.SetsUnused id
  | _ => True

theorem EquipStep.after_noDangling_iff (instant : Str → Option Micros) (token : Str)
    (d : ApiDb EquipDb) (st : EquipStep) (hd : NoDangling d) :
    NoDangling (st.after instant token d) ↔ st.LeavesNone token d := by
  obtain ⟨op, req, now, rs⟩ := st
  cases op with
  | deleteRig id => exact deleteRig_noDangling_iff hd
  | postRig => exact iff_of_true (postRig_keeps _ _ _ d rs hd) trivial
  | patchRig id => exact iff_of_true (patchRig_keeps _ _ _ _ d rs hd) trivial
  | postFlatSet => exact iff_of_true (postFlatSet_keeps _ _ _ _ d rs hd) trivial
  | patchFlatSet id => exact iff_of_true (patchFlatSet_keeps _ _ _ _ d rs hd) trivial
  | deleteFlatSet id => exact iff_of_true (deleteFlatSet_keeps _ _ _ _ d rs hd) trivial
  | postFlatPin => exact iff_of_true (postFlatPin_keeps _ _ _ d rs hd) trivial
  | deleteFlatPin id => exact iff_of_true (deleteFlatPin_keeps _ _ _ _ d rs hd) trivial

/-- **No dangling flat set, exactly.**  From a state without dangling references, a run of equipment
requests stays without them exactly if each deletion of a rig that is carried out finds the rig's
flat sets unused by frames and other rigs. -/
theorem noDangling_always_iff (instant : Str → Option Micros) (token : Str) (d : ApiDb EquipDb)
    (steps : List EquipStep) (hd : NoDangling d) :
    Run.Always (EquipStep.after instant token) NoDangling d steps ↔
      Run.Each (EquipStep.after instant token) (fun d st => st.LeavesNone token d) d steps :=
  Run.always_iff_each (A := fun _ _ => True)
    (fun d st hd _ => st.after_noDangling_iff instant token d hd) hd
    (Run.each_of_forall fun _ _ => trivial)

end Server

/-! ### A rig deleted under its flats -/

section Deleted

attribute [local instance] plainHost

instance (d : ApiDb EquipDb) : Decidable (NoDangling d) :=
  inferInstanceAs (Decidable d.rest.NoDangling)

/-- A rig with one flat set and one flat that was claimed for it, and a live session of `ann`. -/
def oneFlatSet : ApiDb EquipDb where
  users := (twoAdmins true).users
  sessions := (twoAdmins true).sessions
  rest :=
    { frames := (Table.empty frameKeying).upsert _ (newFrame 1 ⟨0, true, 16, 2, 1, 1, []⟩
        { imageType := .flat } { cameraId := some 1, rigId := some 1 }) (setFlatSet none)
        |>.modify (fun _ => true) (setFlatSet (some 1))
      rigs := (Table.empty rigKeying).upsert _
        (EquipDb.newRig "Askar185-ASI6200".toList 1 none none 1000 1100) (setActiveFlatSet none)
      flatSets := (Table.empty flatSetKeying).upsert _ (newFlatSet 1 none "2026-07-01".toList
        .inferred "2026-07-02 03:00:00".toList "2026-07-02 03:10:00".toList none none)
        (setCounted 0 none)
      pins := []
      nextPin := 1
      telescopes := Table.empty nameKeying
      cameraIds := [1]
      siteIds := []
      savedQueryIds := []
      frames_fk := by decide
      flatSets_fk := by decide
      pins_fk := by decide }

/-- A request of `ann`. -/
def annRequests (op : EquipOp) : EquipStep where
  op := op
  req := { cookie := "sb_session=t".toList }
  now := 0
  replies := []

/-- After the flat set, the rig can go. -/
theorem noDangling_always_in_order : Run.Always (EquipStep.after (fun _ => none) []) NoDangling
    oneFlatSet [annRequests (.deleteFlatSet 1), annRequests (.deleteRig 1)] :=
  (noDangling_always_iff (fun _ => none) [] oneFlatSet _ (by decide)).mpr
    ⟨trivial, fun _ => by decide, trivial⟩

/-- Deleting the rig takes its flat set away and leaves the flat claimed for it. -/
theorem deleteRig_leaves_dangling : NoDangling oneFlatSet ∧
    ¬ Run.Always (EquipStep.after (fun _ => none) []) NoDangling oneFlatSet
      [annRequests (.deleteRig 1)] := by
  decide

end Deleted

end StarBase.Api
