import StarBase.Api.OpenRoutes
import StarBase.Api.Sessions

/-!
# The gates of the routes

Every route that changes data stands behind one of two gates, but for the login routes, which touch
only the caller's own rows, and for the path listing, which stamps the saved query it lists.

* `WriteRoute`, `AdminRoute`, `Endpoint` — the routes by their gate;
* `queryPaths` — `GET /queries/:id/paths`, which stands behind none;
* `serve` — a request, from its gate to its answer;
* `OnlyOwn`, `OwnOrStamp` — what a caller without rights may change;
* `unauthorised_changes` — **PROVED**: such a caller changes nothing else, whatever fails, but where
  a failed count of the users opens a write route.

The handlers behind the gates are arbitrary programs over the tables and the files; the routes without
a gate are those of `reading`.
-/

namespace StarBase.Api

open Relational Statements StarBase.Action Query

/-! ### The routes by their gate -/

/-- The routes behind `write_allowed`. -/
inductive WriteRoute
  | fsList | addRoot | patchRoot | removeRoot | saveQuery | deleteQuery | actions | scan | addTag
  | deleteTag | addTagMembers | removeTagMembers | addCollection | deleteCollection
  | addCollectionMembers | removeCollectionMembers | dbSeed | pruneMissing
  deriving DecidableEq, Repr

/-- The routes behind `require_admin`. -/
inductive AdminRoute
  | users | addUser | patchUser | deleteUser | resolveObjects | applyObjects | equipment | addRig
  | patchRig | deleteRig | siteSuggestions | addSite | patchSite | deleteSite | flatSetSuggestions
  | addFlatSet | patchFlatSet | deleteFlatSet | addFlatPin | deleteFlatPin | putSettings
  | applySettings
  deriving DecidableEq, Repr

/-- A route, with what its path matches. -/
inductive Endpoint
  | read (r : ReadRoute)
  | write (r : WriteRoute) (matched : Str)
  | admin (r : AdminRoute) (matched : Str)
  | login
  | logout
  | password
  | queryPaths (id : ℕ) (format : Option Str)
  deriving DecidableEq, Repr

/-- The refusal of `write_allowed`. -/
def WriteRoute.refusal : WriteRoute → Str
  | .fsList => "a login is required to browse the server".toList
  | .pruneMissing => "a login is required".toList
  | _ => "a valid token is required".toList

/-! ### Saved queries -/

structure SavedQuery where
  id : ℕ
  name : Str
  filterJson : FilterText
  lastRunAt : Option Int
  lastCount : Option ℕ

section Server

variable [Host]

/-- `saved_queries` is keyed by its UNIQUE name. -/
def savedQueryKeying : Keying SavedQuery Str where
  id := SavedQuery.id
  key := fun q => Host.collate q.name

/-- The tables besides `users` and `sessions`, in `V` those no saved query is read from, and the files
by their paths. -/
structure Archive (V : Type) where
  savedQueries : Table savedQueryKeying
  index : IndexDb
  roots : List RootRow
  others : V
  files : Str → Option Str

variable {V : Type} (truth : Truth) (order : List SortKey → ServerOrder ViewRow)

/-- `SET last_run_at, last_count`. -/
def stamped (now : Int) (count : ℕ) : RowUpdate (savedQueryKeying) where
  apply q := { q with lastRunAt := some now, lastCount := some count }
  id_apply _ := rfl
  key_apply _ := rfl

/-- `UPDATE saved_queries ... WHERE id = id`. -/
def stampQuery (now : Int) (id count : ℕ) (d : ApiDb (Archive V)) : ApiDb (Archive V) :=
  { d with rest := { d.rest with
      savedQueries := d.rest.savedQueries.modify (fun q => q.id = id) (stamped now count) } }

/-- The frames of a saved query, found by one statement, read by a second one if there are any. -/
def savedFrames (text : FilterText) : Route (Archive V) (Compile (List FrameRef)) := do
  let d ← get
  match resolveByFilter truth order d.rest.index d.rest.roots text 100000 with
  | .error e => pure (.error e)
  | .ok frames => do
    query fun _ => ()
    if frames = [] then pure () else query fun _ => ()
    pure (.ok frames)

def pathsAnswer (q : SavedQuery) (format : Option Str) (frames : List FrameRef) : Response :=
  if format = some "text".toList then
    sendJson (.str (frames.flatMap fun f => f.absPath ++ ['\n'])) 200
  else sendJson (.obj [("id".toList, .int q.id), ("name".toList, .str q.name),
    ("count".toList, .int frames.length),
    ("paths".toList, .arr (frames.map fun f => .str f.absPath))]) 200

/-- The saved query of an id. -/
def savedQuery (d : ApiDb (Archive V)) (id : ℕ) : Option SavedQuery :=
  d.rest.savedQueries.rows.find? fun q => q.id = id

/-- What the listing does with the frames of its query. -/
def listPaths (now : Int) (id : ℕ) (format : Option Str) (q : SavedQuery) :
    Compile (List FrameRef) → Route (Archive V) Response
  | .error (.query what) => pure (sendError 400 what)
  | .error (.other e) => throw e
  | .ok frames => do
    exec fun d => .ok (stampQuery now id frames.length d)
    pure (pathsAnswer q format frames)

def pathsOf (now : Int) (id : ℕ) (format : Option Str) :
    Option SavedQuery → Route (Archive V) Response
  | none => pure (sendError 404 "no such query".toList)
  | some q => savedFrames truth order q.filterJson >>= listPaths now id format q

/-- `GET /queries/:id/paths`. -/
def queryPaths (now : Int) (id : ℕ) (format : Option Str) : Route (Archive V) Response :=
  caught do
    connect
    let found ← query fun d => savedQuery d id
    pathsOf truth order now id format found

/-! ### Serving a request -/

/-- What the routes do behind their gates. -/
structure Handlers (W : Type) where
  writing : WriteRoute → Str → Request → Route W Response
  administering : AdminRoute → Str → Request → Route W Response

/-- The process, and what it draws on while it serves. -/
structure Serving extends Process where
  random : Option Str
  salt : Option (List UInt8)

def serve (srv : Server (Archive V)) (cfg : Serving) (h : Handlers (Archive V)) (req : Request) :
    Endpoint → Route (Archive V) Response
  | .read r => reading srv cfg.toProcess req r
  | .write r matched => do
    if ← writeAllowed cfg.token cfg.now req then h.writing r matched req
    else pure (sendError 403 r.refusal)
  | .admin r matched => requireAdmin cfg.token cfg.now req (h.administering r matched req)
  | .login => login cfg.now cfg.random req
  | .logout => logout req
  | .password => changePassword cfg.token cfg.now cfg.salt req
  | .queryPaths id format => queryPaths truth order cfg.now id format

/-! ### What is allowed without rights -/

/-- Users exist or a token is configured. -/
def Configured (token : Str) (d : ApiDb (Archive V)) : Prop := token ≠ [] ∨ d.users.rows ≠ []

/-- The request carries neither the token nor the session of a user with rights to write. -/
structure Unauthorised (token : Str) (now : Int) (req : Request) (d : ApiDb (Archive V)) : Prop where
  no_token : carriesToken token req = false
  no_session : presentedSession req ≠ [] → ∀ u, d.sessionUser now (presentedSession req) = some u →
    u.role = .readonly

/-- A user but for the time of the login, and for the password if it is the caller. -/
def othersView (caller : Option UserRow) (u : UserRow) :
    ℕ × Str × Role × Bool × Option (Hashed × Bool) :=
  (u.id, u.username, u.role, u.enabled,
    if (caller.map fun c => Host.collate c.username) = some (Host.collate u.username) then none
    else some (u.pwd, u.mustChangePassword))

/-- Only sessions, the login time and the caller's own password differ. -/
structure OnlyOwn (ep : Endpoint) (caller : Option UserRow) (d t : ApiDb (Archive V)) : Prop where
  rest : t.rest = d.rest
  users : t.users.rows.map (othersView caller) = d.users.rows.map (othersView caller)
  sessions : ep = .login ∨ ep = .logout ∨ t.sessions = d.sessions

/-- Only these, or the time and the count of the saved query whose paths are listed. -/
def OwnOrStamp (now : Int) (ep : Endpoint) (caller : Option UserRow) (d t : ApiDb (Archive V)) : Prop :=
  OnlyOwn ep caller d t ∨
    ∃ id format count, ep = .queryPaths id format ∧ t = stampQuery now id count d

/-- The user behind the session of a request. -/
def ApiDb.caller (d : ApiDb (Archive V)) (now : Int) (req : Request) : Option UserRow :=
  if presentedSession req = [] then none else d.sessionUser now (presentedSession req)

/-! ### Two statements, a failure answered -/

/-- The replies that a connection and a query leave. -/
def afterQuery (rs : List Reply) : List Reply :=
  if (nextReply rs).1 = .ok then (nextReply (nextReply rs).2).2 else (nextReply rs).2

instance (n : ℕ) (rs : List Reply) : Decidable (Healthy n rs) :=
  inferInstanceAs (Decidable (∀ r ∈ rs.take n, r = .ok))

variable {truth order}

theorem asked_apply {W α β : Type} (f : ApiDb W → α) (g : α → β) (b : β) (d : ApiDb W)
    (rs : List Reply) :
    (tryCatch (do
        connect
        let a ← query f
        pure (g a))
      fun _ => pure b : Route W β) d rs =
      ⟨.ok (if Healthy 2 rs then g (f d) else b), d, afterQuery rs⟩ := by
  rcases rs with _ | ⟨_ | _ | _, _ | ⟨_ | _ | _, rest⟩⟩ <;> rfl

/-! ### The gates, run -/

section Gates

variable {cfg : Serving} {req : Request} {d : ApiDb (Archive V)} {rs : List Reply}

/-- The replies that `authenticate` leaves, of a request without the token. -/
def afterAuthenticate (req : Request) (rs : List Reply) : List Reply :=
  if presentedSession req = [] then rs else afterQuery rs

/-- No failure keeps the session from being recognised. -/
def Recognised (now : Int) (req : Request) (d : ApiDb (Archive V)) (rs : List Reply) : Prop :=
  (d.caller now req).isSome ∧ Healthy 2 rs

/-- `write_allowed` opens to everybody: no token is configured, the caller is not recognised, and
the count of the users fails. -/
def OpensByFailure (token : Str) (now : Int) (req : Request) (d : ApiDb (Archive V))
    (rs : List Reply) : Prop :=
  token = [] ∧ ¬Recognised now req d rs ∧ ¬Healthy 2 (afterAuthenticate req rs)

theorem authenticate_apply (hno : carriesToken cfg.token req = false) :
    (authenticate cfg.token cfg.now req : Route (Archive V) _) d rs =
      ⟨.ok (if Healthy 2 rs then (d.caller cfg.now req).map UserRow.caller else none), d,
        afterAuthenticate req rs⟩ := by
  unfold authenticate afterAuthenticate ApiDb.caller
  rw [if_neg (by rw [hno]; decide)]
  by_cases hs : presentedSession req = []
  · rw [if_pos hs, if_pos hs, if_pos hs]
    simp
  · rw [if_neg hs, if_neg hs, if_neg hs]
    exact asked_apply (fun d => d.sessionUser cfg.now (presentedSession req)) _ none d rs

theorem caller_readonly (hun : Unauthorised cfg.token cfg.now req d) {u : UserRow}
    (hu : d.caller cfg.now req = some u) : u.role = .readonly := by
  unfold ApiDb.caller at hu
  split at hu
  · cases hu
  · next hs => exact hun.no_session hs u hu

theorem anyUsers_apply : (anyUsers : Route (Archive V) Bool) d rs =
    ⟨.ok (if Healthy 2 rs then decide (0 < d.users.rows.length) else false), d, afterQuery rs⟩ :=
  asked_apply (fun d : ApiDb (Archive V) => d.users.rows.length) (fun n => decide (0 < n)) false d rs

theorem identity_of_recognised (hun : Unauthorised cfg.token cfg.now req d)
    (h : Recognised cfg.now req d rs) : ∃ c : Caller, c.role = .readonly ∧
      (if Healthy 2 rs then (d.caller cfg.now req).map UserRow.caller else none) = some c := by
  obtain ⟨u, hu⟩ := Option.isSome_iff_exists.mp h.1
  refine ⟨u.caller, caller_readonly hun hu, ?_⟩
  rw [if_pos h.2, hu]
  rfl

theorem identity_of_not_recognised (h : ¬Recognised cfg.now req d rs) :
    (if Healthy 2 rs then (d.caller cfg.now req).map UserRow.caller else none) = none := by
  split
  · next hh =>
    cases hc : d.caller cfg.now req with
    | none => rfl
    | some u => exact absurd ⟨by rw [hc]; rfl, hh⟩ h
  · rfl

/-- A failed count of the users opens the gate. -/
theorem writeAllowed_of_failure (hun : Unauthorised cfg.token cfg.now req d)
    (h : OpensByFailure cfg.token cfg.now req d rs) :
    (writeAllowed cfg.token cfg.now req : Route (Archive V) Bool) d rs =
      ⟨.ok true, d, afterQuery (afterAuthenticate req rs)⟩ := by
  obtain ⟨htoken, hrec, hfail⟩ := h
  unfold writeAllowed
  rw [bind_apply, authenticate_apply hun.no_token, andThen_ok, identity_of_not_recognised hrec]
  dsimp only
  rw [if_pos htoken, bind_apply, anyUsers_apply, andThen_ok, if_neg hfail]
  rfl

/-- Nothing else does, for a caller without rights. -/
theorem writeAllowed_refuses (hconf : Configured cfg.token d)
    (hun : Unauthorised cfg.token cfg.now req d) (h : ¬OpensByFailure cfg.token cfg.now req d rs) :
    ((writeAllowed cfg.token cfg.now req : Route (Archive V) Bool) d rs).result = .ok false := by
  unfold writeAllowed
  rw [bind_apply, authenticate_apply hun.no_token, andThen_ok]
  by_cases hrec : Recognised cfg.now req d rs
  · obtain ⟨c, hrole, hc⟩ := identity_of_recognised hun hrec
    rw [hc]
    dsimp only
    rw [hrole]
    rfl
  · rw [identity_of_not_recognised hrec]
    dsimp only
    by_cases htoken : cfg.token = []
    · have hcount : Healthy 2 (afterAuthenticate req rs) := by
        by_contra hfail
        exact h ⟨htoken, hrec, hfail⟩
      have husers : 0 < d.users.rows.length :=
        List.length_pos_of_ne_nil (hconf.resolve_left (not_not_intro htoken))
      rw [if_pos htoken, bind_apply, anyUsers_apply, andThen_ok, if_pos hcount,
        decide_eq_true husers]
      rfl
    · rw [if_neg htoken]
      rfl

/-- The admin gate stays shut, whatever fails. -/
theorem requireAdmin_refuses (hun : Unauthorised cfg.token cfg.now req d)
    (body : Route (Archive V) Response) :
    (requireAdmin cfg.token cfg.now req body d rs).store = d := by
  unfold requireAdmin
  rw [bind_apply, authenticate_apply hun.no_token, andThen_ok]
  by_cases hrec : Recognised cfg.now req d rs
  · obtain ⟨c, hrole, hc⟩ := identity_of_recognised hun hrec
    rw [hc]
    dsimp only
    rw [if_neg (by rw [hrole]; decide)]
    rfl
  · rw [identity_of_not_recognised hrec]
    rfl

end Gates

/-! ### The login routes -/

section Own

variable {ep : Endpoint} {caller : Option UserRow}

theorem onlyOwn_refl (d : ApiDb (Archive V)) : OnlyOwn ep caller d d :=
  ⟨rfl, rfl, Or.inr (Or.inr rfl)⟩

theorem onlyOwn_trans (d t u : ApiDb (Archive V)) (h : OnlyOwn ep caller d t)
    (h' : OnlyOwn ep caller t u) : OnlyOwn ep caller d u where
  rest := h'.rest.trans h.rest
  users := h'.users.trans h.users
  sessions := by
    rcases h.sessions with he | he | hs
    · exact Or.inl he
    · exact Or.inr (Or.inl he)
    · exact h'.sessions.imp_right fun h' => h'.imp_right fun hs' => hs'.trans hs

theorem onlyOwn_bind {α β : Type} {m : Route (Archive V) α} {f : α → Route (Archive V) β}
    (hm : ReadOnly m) (hf : ∀ a, Within (OnlyOwn ep caller) (f a)) :
    Within (OnlyOwn ep caller) (m >>= f) :=
  within_bind onlyOwn_trans (hm.within onlyOwn_refl) hf

theorem onlyOwn_pure {α : Type} (a : α) :
    Within (OnlyOwn ep caller) (pure a : Route (Archive V) α) :=
  within_pure onlyOwn_refl a

theorem onlyOwn_handled {m : Route (Archive V) Response} (h : Within (OnlyOwn ep caller) m) :
    Within (OnlyOwn ep caller) (handled m) := by
  refine within_tryCatch onlyOwn_trans h fun e => ?_
  cases e <;> exact onlyOwn_pure _

/-- An update of the rows that the view does not tell apart. -/
theorem view_modify {p : UserRow → Bool} {f : RowUpdate (userKeying)} {users : Table userKeying}
    (h : ∀ u, p u = true → othersView caller (f.apply u) = othersView caller u) :
    (users.modify p f).rows.map (othersView caller) = users.rows.map (othersView caller) := by
  rw [Table.modify_rows, List.map_map]
  refine List.map_congr_left fun u _ => ?_
  show othersView caller (if p u then f.apply u else u) = _
  split
  · next hp => exact h u hp
  · rfl

theorem login_onlyOwn (now : Int) (random : Option Str) (req : Request) :
    Within (OnlyOwn .login caller) (login now random req : Route (Archive V) Response) := by
  refine onlyOwn_handled ?_
  refine onlyOwn_bind (parseBody_readOnly req) fun body => ?_
  refine onlyOwn_bind (liftE_readOnly _) fun user => ?_
  refine onlyOwn_bind (liftE_readOnly _) fun pass => ?_
  split
  · exact onlyOwn_pure _
  · refine onlyOwn_bind connect_readOnly fun _ => ?_
    refine onlyOwn_bind (readOnly_query _) fun u => ?_
    cases u with
    | none => exact onlyOwn_pure _
    | some u =>
      dsimp only
      split
      · exact onlyOwn_pure _
      · split
        · exact onlyOwn_pure _
        · refine onlyOwn_bind (liftE_readOnly _) fun sess => ?_
          refine within_bind onlyOwn_trans (within_exec onlyOwn_refl fun d t ht => ?_) fun _ => ?_
          · unfold ApiDb.insertSession at ht
            split at ht
            · cases ht
            · split at ht
              · cases ht
                exact ⟨rfl, rfl, Or.inl rfl⟩
              · cases ht
          · refine within_bind onlyOwn_trans (within_exec onlyOwn_refl fun d t ht => ?_)
              fun _ => onlyOwn_pure _
            cases ht
            exact ⟨rfl, view_modify fun u _ => rfl, Or.inl rfl⟩

theorem logout_onlyOwn (req : Request) :
    Within (OnlyOwn .logout caller) (logout req : Route (Archive V) Response) := by
  refine within_bind onlyOwn_trans ?_ fun _ => onlyOwn_pure _
  refine within_tryCatch onlyOwn_trans ?_ fun _ => onlyOwn_pure _
  split
  · exact onlyOwn_pure _
  · refine onlyOwn_bind connect_readOnly fun _ => ?_
    refine within_exec onlyOwn_refl fun d t ht => ?_
    cases ht
    exact ⟨rfl, rfl, Or.inr (Or.inl rfl)⟩

end Own

section Password

variable {cfg : Serving} {req : Request} {d : ApiDb (Archive V)} {rs : List Reply}

/-- A password is changed by its owner only. -/
theorem changePassword_onlyOwn (hun : Unauthorised cfg.token cfg.now req d) :
    OnlyOwn .password (d.caller cfg.now req) d
      (changePassword cfg.token cfg.now cfg.salt req d rs).store := by
  unfold changePassword
  rw [bind_apply, authenticate_apply hun.no_token, andThen_ok]
  by_cases hh : Healthy 2 rs
  · rw [if_pos hh]
    cases hc : d.caller cfg.now req with
    | none => exact onlyOwn_refl d
    | some u =>
      refine (?_ : Within (OnlyOwn .password (some u)) _) d _
      show Within _ (if u.caller.viaToken = true then _ else _)
      rw [if_neg (by show ¬ (false = true); decide)]
      refine onlyOwn_handled ?_
      refine onlyOwn_bind (parseBody_readOnly req) fun body => ?_
      refine onlyOwn_bind (liftE_readOnly _) fun cur => ?_
      refine onlyOwn_bind (liftE_readOnly _) fun nw => ?_
      split
      · exact onlyOwn_pure _
      · refine onlyOwn_bind connect_readOnly fun _ => ?_
        refine onlyOwn_bind (readOnly_query _) fun pwd => ?_
        cases pwd with
        | none => exact onlyOwn_pure _
        | some pwd =>
          dsimp only
          split
          · exact onlyOwn_pure _
          · refine onlyOwn_bind (liftE_readOnly _) fun hp => ?_
            refine within_bind onlyOwn_trans (within_exec onlyOwn_refl fun s t ht => ?_)
              fun _ => onlyOwn_pure _
            cases ht
            refine ⟨rfl, view_modify fun v hv => ?_, Or.inr (Or.inr rfl)⟩
            have hsame : (some u).map (fun c => Host.collate c.username) =
                some (Host.collate v.username) := congrArg some (of_decide_eq_true hv).symm
            unfold othersView
            rw [if_pos hsame]
            exact congrArg (fun x => (v.id, v.username, v.role, v.enabled, x)) (if_pos hsame)
  · rw [if_neg hh]
    exact onlyOwn_refl d

end Password

/-! ### The saved query of a path listing -/

section Paths

variable {now : Int} {id : ℕ} {format : Option Str}

/-- The saved query of that id is stamped, or nothing is changed. -/
def Stamped (now : Int) (id : ℕ) (d t : ApiDb (Archive V)) : Prop :=
  t = d ∨ ∃ count, t = stampQuery now id count d

theorem stamped_refl (d : ApiDb (Archive V)) : Stamped now id d d := Or.inl rfl

theorem savedFrames_readOnly (text : FilterText) :
    ReadOnly (savedFrames truth order text : Route (Archive V) _) := by
  refine readOnly_bind readOnly_get fun d => ?_
  split
  · exact readOnly_pure _
  · refine readOnly_bind (readOnly_query _) fun _ => ?_
    refine readOnly_ite ?_ ?_
    · exact readOnly_pure _
    · exact readOnly_bind (readOnly_query _) fun _ => readOnly_pure _

theorem listPaths_stamped (q : SavedQuery) (frames : Compile (List FrameRef)) :
    Within (Stamped now id) (listPaths now id format q frames : Route (Archive V) Response) := by
  rcases frames with (what | e) | frames
  · exact within_pure stamped_refl _
  · exact within_throw stamped_refl _
  · intro d rs
    show Stamped now id d ((exec (fun d => .ok (stampQuery now id frames.length d)) >>=
      fun _ => pure (pathsAnswer q format frames) : Route (Archive V) Response) d rs).store
    rw [bind_pure_store]
    refine within_exec stamped_refl (fun s t ht => ?_) d rs
    cases ht
    exact Or.inr ⟨frames.length, rfl⟩

/-- **The path listing touches nothing but its saved query.** -/
theorem queryPaths_stamped :
    Within (Stamped now id) (queryPaths truth order now id format : Route (Archive V) Response) := by
  refine within_tryCatch_readOnly ?_ fun e => ?_
  · refine within_bind_readOnly stamped_refl connect_readOnly fun _ => ?_
    refine within_bind_readOnly stamped_refl (readOnly_query _) fun found => ?_
    cases found with
    | none => exact within_pure stamped_refl _
    | some q =>
      exact within_bind_readOnly stamped_refl (savedFrames_readOnly _) fun frames =>
        listPaths_stamped q frames
  · cases e <;> exact readOnly_pure _

end Paths

/-! ### Every route -/

section Routes

variable {srv : Server (Archive V)} {cfg : Serving} {h : Handlers (Archive V)} {req : Request}
  {d : ApiDb (Archive V)} {rs : List Reply}

/-- A failed count of the users opens every write route. -/
theorem serve_write_opened (truth : Truth) (order : List SortKey → ServerOrder ViewRow) (r : WriteRoute)
    (matched : Str) (hun : Unauthorised cfg.token cfg.now req d)
    (hopen : OpensByFailure cfg.token cfg.now req d rs) :
    (serve truth order srv cfg h req (.write r matched) d rs).store =
      (h.writing r matched req d (afterQuery (afterAuthenticate req rs))).store := by
  show ((writeAllowed cfg.token cfg.now req >>= _ : Route (Archive V) Response) d rs).store = _
  rw [bind_apply, writeAllowed_of_failure hun hopen, andThen_ok]
  rfl

/-- A write route that stays shut changes nothing. -/
theorem serve_write_store (truth : Truth) (order : List SortKey → ServerOrder ViewRow) (r : WriteRoute)
    (matched : Str) (hconf : Configured cfg.token d) (hun : Unauthorised cfg.token cfg.now req d)
    (hshut : ¬OpensByFailure cfg.token cfg.now req d rs) :
    (serve truth order srv cfg h req (.write r matched) d rs).store = d := by
  have hresult := writeAllowed_refuses hconf hun hshut
  have hstore := writeAllowed_readOnly cfg.token cfg.now req d rs
  show ((writeAllowed cfg.token cfg.now req >>= _ : Route (Archive V) Response) d rs).store = d
  rw [bind_apply, Done.andThen, hresult]
  exact hstore

/-- **Without rights.**  Whatever is asked and whatever fails, a caller without rights changes nothing
but sessions, login times, its own password, and the stamp of a saved query whose paths it lists;
write routes that a failed count of the users opens are left out. -/
theorem unauthorised_changes (truth : Truth) (order : List SortKey → ServerOrder ViewRow)
    (srv : Server (Archive V)) (h : Handlers (Archive V)) (ep : Endpoint)
    (hconf : Configured cfg.token d) (hun : Unauthorised cfg.token cfg.now req d)
    (hshut : ∀ r matched, ep = .write r matched → ¬OpensByFailure cfg.token cfg.now req d rs) :
    OwnOrStamp cfg.now ep (d.caller cfg.now req) d (serve truth order srv cfg h req ep d rs).store := by
  cases ep with
  | read r =>
    left
    rw [show (serve truth order srv cfg h req (.read r) d rs).store = d from
      reading_readOnly srv cfg.toProcess req r d rs]
    exact onlyOwn_refl d
  | write r matched =>
    left
    rw [serve_write_store truth order r matched hconf hun (hshut r matched rfl)]
    exact onlyOwn_refl d
  | admin r matched =>
    left
    rw [show (serve truth order srv cfg h req (.admin r matched) d rs).store = d from
      requireAdmin_refuses hun _]
    exact onlyOwn_refl d
  | login => exact Or.inl (login_onlyOwn _ _ _ d rs)
  | logout => exact Or.inl (logout_onlyOwn _ d rs)
  | password => exact Or.inl (changePassword_onlyOwn hun)
  | queryPaths id format =>
    rcases (queryPaths_stamped : Within (Stamped cfg.now id)
      (queryPaths truth order cfg.now id format)) d rs with hsame | ⟨count, hstamp⟩
    · left
      rw [show (serve truth order srv cfg h req (.queryPaths id format) d rs).store = d from hsame]
      exact onlyOwn_refl d
    · exact Or.inr ⟨id, format, count, rfl, hstamp⟩

end Routes

end Server

/-! ### A reader and a stranger -/

section Values

attribute [local instance] plainHost

/-- A server that answers nothing. -/
def silentServer (W : Type) : Server W where
  session := ⟨id, id⟩
  version := []
  rows _ _ := []
  effect _ d := .ok d

/-- Nothing is configured but the address. -/
def openServing : Serving where
  version := []
  database := []
  token := []
  now := 7
  listener := ⟨"127.0.0.1".toList, 8080, false⟩
  canApply := false
  sesameEnabled := false
  scan := ⟨false, false, [], 0, 0, 0, 0, 0, 0, 0, 0, 0, 0, [], 0⟩
  addresses := []
  webFile _ := none
  parse _ := .error []
  random := none
  salt := none

/-- Behind the gates everything is deleted. -/
def wipingHandlers : Handlers (Archive Unit) where
  writing _ _ _ := do
    exec fun d => .ok { d with rest := { d.rest with files := fun _ => none } }
    pure (sendJson .null 200)
  administering _ _ _ := do
    exec fun d => .ok { d with sessions := [] }
    pure (sendJson .null 200)

/-- A user who may only read, with a session, and a saved query of all frames. -/
def readersArchive : ApiDb (Archive Unit) where
  users := ⟨[⟨1, "rea".toList, ⟨[], [], 1⟩, .readonly, true, false, none⟩], 2,
    List.forall_mem_singleton.mpr (Nat.lt_succ_self 1), List.nodup_singleton _, List.nodup_singleton _⟩
  sessions := [⟨"s".toList, 1, 100⟩]
  rest :=
    { savedQueries := ⟨[⟨1, "all".toList, .empty, none, none⟩], 2,
        List.forall_mem_singleton.mpr (Nat.lt_succ_self 1), List.nodup_singleton _,
        List.nodup_singleton _⟩
      index := IndexDb.blank {}
      roots := []
      others := ()
      files := fun _ => some "SIMPLE".toList }

def readersRequest : Request := { cookie := "sb_session=s".toList }

theorem readersArchive_configured : Configured openServing.token readersArchive :=
  Or.inr (by decide)

/-- The reader's session opens no write route, whatever the server answers after it. -/
theorem unauthorised_changes_reader :
    OwnOrStamp 7 (.write .actions []) (readersArchive.caller 7 readersRequest) readersArchive
      (serve allHold asStored (silentServer _) openServing wipingHandlers readersRequest
        (.write .actions []) readersArchive [.ok, .ok, .failed]).store := by
  refine unauthorised_changes allHold asStored (silentServer _) wipingHandlers _
    readersArchive_configured ⟨by decide, fun _ u hu => ?_⟩ fun r matched _ hopen => ?_
  · have hrole : (readersArchive.sessionUser 7 (presentedSession readersRequest)).map UserRow.role =
        some .readonly := by decide
    rw [show openServing.now = 7 from rfl] at hu
    rw [hu] at hrole
    exact Option.some.inj hrole
  · exact hopen.2.1 ⟨by decide, by decide⟩

/-- A stranger stamps a saved query by listing its paths. -/
theorem stranger_stamps :
    (Configured openServing.token readersArchive ∧
      Unauthorised openServing.token openServing.now {} readersArchive) ∧
    ¬OnlyOwn (.queryPaths 1 none) (readersArchive.caller 7 {}) readersArchive
      (serve allHold asStored (silentServer _) openServing wipingHandlers {} (.queryPaths 1 none)
        readersArchive []).store := by
  refine ⟨⟨readersArchive_configured, by decide, fun h => absurd (by decide) h⟩, fun h => ?_⟩
  have hrun := congrArg (fun a => a.savedQueries.rows.map SavedQuery.lastRunAt) h.rest
  revert hrun
  decide

end Values

end StarBase.Api
