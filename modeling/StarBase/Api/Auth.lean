import StarBase.Lib.Table
import StarBase.Host

/-!
# Users, sessions and the gates of the HTTP API

The identity behind a request and the three gates of the routes.

* `ApiDb W` — the `users` and `sessions` tables, beside the rest `W` of what the API can change;
* `authenticate` — the static token, else the session of an enabled user; a database failure
  counts as no identity;
* `anyUsers` — a database failure counts as no users;
* `writeAllowed`, `requireAdmin` — the gates, as programs over the replies of the server.

A request is the parts of it that the routes read, and an answer its status and its body.
-/

namespace StarBase.Api

open Relational Statements

/-! ### Rows -/

inductive Role
  | admin
  | user
  | readonly
  deriving DecidableEq, Repr

/-- The values the routes accept for a role. -/
def Role.ofText (s : Str) : Option Role :=
  if s = "admin".toList then some .admin
  else if s = "user".toList then some .user
  else if s = "readonly".toList then some .readonly
  else none

/-- The stored password columns. -/
structure Hashed where
  salt : List UInt8
  hash : List UInt8
  iterations : ℕ
  deriving DecidableEq, Repr

structure UserRow where
  id : ℕ
  username : Str
  pwd : Hashed
  role : Role
  enabled : Bool
  mustChangePassword : Bool
  lastLoginAt : Option Int
  deriving DecidableEq, Repr

structure SessionRow where
  token : Str
  userId : ℕ
  expiresAt : Int
  deriving DecidableEq, Repr

variable [Host]

/-- `users` is keyed by its UNIQUE username, compared under the collation. -/
def userKeying : Keying UserRow Str where
  id := UserRow.id
  key := fun u => Host.collate u.username

/-- The database the API works on, with the rest of the persistent state in `W`. -/
structure ApiDb (W : Type) where
  users : Table userKeying
  sessions : List SessionRow
  rest : W

variable {W : Type}

/-- `SELECT ... FROM users WHERE username = name`. -/
def ApiDb.user (d : ApiDb W) (name : Str) : Option UserRow :=
  d.users.get (Host.collate name)

/-! ### Requests and responses -/

/-- What the routes read of a request.  A header that is absent reads as the empty string. -/
structure Request where
  xSbToken : Str := []
  authorization : Str := []
  cookie : Str := []
  /-- The parameters of the query string. -/
  params : Str → Option Str := fun _ => none
  bodyEmpty : Bool := false
  /-- The parsed body, or the parser's exception text. -/
  body : Except Str Json := .error []

structure Response where
  status : ℕ
  body : Json

def sendJson (body : Json) (status : ℕ) : Response := ⟨status, body⟩

def sendError (status : ℕ) (msg : Str) : Response :=
  sendJson (.obj [("error".toList, .str msg)]) status

/-- A route's program over the database. -/
abbrev Route (W : Type) (α : Type) := Prog (ApiDb W) Thrown α

/-- The `catch` clauses at the end of a route. -/
def handled (m : Route W Response) : Route W Response :=
  tryCatch m fun
    | .json what => pure (sendError 400 ("invalid JSON: ".toList ++ what))
    | .std what => pure (sendError 500 what)

/-- A pure step that may throw. -/
def liftE {α : Type} : Except Thrown α → Route W α
  | .ok a => pure a
  | .error e => throw e

/-- `json::parse(req.body)`. -/
def parseBody (req : Request) : Route W Json :=
  match req.body with
  | .ok j => pure j
  | .error what => throw (.json what)

/-- Opening a connection: a statement of its own, which may fail. -/
def connect : Route W Unit := query fun _ => ()

/-! ### Cookies and bearer tokens -/

def isBlank (c : Char) : Bool := c = ' ' || c = '\t'

/-- The search of `getCookie` from one position of the header on. -/
def cookieFrom (name : Str) : ℕ → Str → Str
  | 0, _ => []
  | fuel + 1, rest =>
    if '=' ∈ rest then
      let key := (rest.takeWhile (· ≠ '=')).dropWhile isBlank
      let after := (rest.dropWhile (· ≠ '=')).tail
      if key = name then after.takeWhile (· ≠ ';')
      else if ';' ∈ after then cookieFrom name fuel (after.dropWhile (· ≠ ';')).tail
      else []
    else []

/-- Value of one cookie from the request's `Cookie` header, or empty. -/
def getCookie (req : Request) (name : Str) : Str :=
  cookieFrom name (req.cookie.length + 1) req.cookie

def bearer (req : Request) : Str :=
  if "Bearer ".toList.isPrefixOf req.authorization then req.authorization.drop 7 else []

/-- The session token a request presents. -/
def presentedSession (req : Request) : Str :=
  let sess := getCookie req "sb_session".toList
  if sess = [] then bearer req else sess

/-! ### Identity -/

structure Caller where
  username : Str
  role : Role
  viaToken : Bool
  deriving DecidableEq, Repr

/-- Whether the request carries the configured static token. -/
def carriesToken (token : Str) (req : Request) : Bool :=
  token ≠ [] && (req.xSbToken = token || bearer req = token || req.params "token".toList = some token)

/-- The enabled user behind an unexpired session token. -/
def ApiDb.sessionUser (d : ApiDb W) (now : Int) (sess : Str) : Option UserRow :=
  d.sessions.findSome? fun s =>
    if Host.collate s.token = Host.collate sess ∧ now < s.expiresAt then
      d.users.rows.find? fun u => u.id = s.userId && u.enabled
    else none

def UserRow.caller (u : UserRow) : Caller := ⟨u.username, u.role, false⟩

/-- The identity behind a request: the static admin token, or a login session. -/
def authenticate (token : Str) (now : Int) (req : Request) : Route W (Option Caller) :=
  if carriesToken token req then pure (some ⟨"(token)".toList, .admin, true⟩)
  else if presentedSession req = [] then pure none
  else
    tryCatch
      (do
        connect
        let u ← query fun d => d.sessionUser now (presentedSession req)
        pure (u.map UserRow.caller))
      fun _ => pure none

/-- Whether any user exists; a failure is answered with `false`. -/
def anyUsers : Route W Bool :=
  tryCatch
    (do
      connect
      let n ← query fun d => d.users.rows.length
      pure (decide (0 < n)))
    fun _ => pure false

/-- A write is allowed for an admin/user session or the static token, and for everybody when no
auth is configured at all. -/
def writeAllowed (token : Str) (now : Int) (req : Request) : Route W Bool := do
  match ← authenticate token now req with
  | some c => pure (c.role = .admin || c.role = .user)
  | none =>
    if token = [] then
      let any ← anyUsers
      pure (!any)
    else pure false

/-- Gate an endpoint on an admin identity; the refusal is the response. -/
def requireAdmin (token : Str) (now : Int) (req : Request) (body : Route W Response) :
    Route W Response := do
  match ← authenticate token now req with
  | some c =>
    if c.role = .admin then body else pure (sendError 403 "admin role required".toList)
  | none => pure (sendError 401 "login required".toList)

/-! ### The gates change nothing -/

theorem connect_readOnly : ReadOnly (connect : Route W Unit) := readOnly_query _

theorem authenticate_readOnly (token : Str) (now : Int) (req : Request) :
    ReadOnly (authenticate token now req : Route W (Option Caller)) := by
  unfold authenticate
  split
  · exact readOnly_pure _
  · split
    · exact readOnly_pure _
    · refine readOnly_tryCatch ?_ fun _ => readOnly_pure _
      exact readOnly_bind connect_readOnly fun _ =>
        readOnly_bind (readOnly_query _) fun _ => readOnly_pure _

theorem anyUsers_readOnly : ReadOnly (anyUsers : Route W Bool) :=
  readOnly_tryCatch
    (readOnly_bind connect_readOnly fun _ => readOnly_bind (readOnly_query _) fun _ =>
      readOnly_pure _)
    fun _ => readOnly_pure _

theorem writeAllowed_readOnly (token : Str) (now : Int) (req : Request) :
    ReadOnly (writeAllowed token now req : Route W Bool) := by
  refine readOnly_bind (authenticate_readOnly token now req) fun c => ?_
  cases c with
  | some c => exact readOnly_pure _
  | none =>
    dsimp only
    split
    · exact readOnly_bind anyUsers_readOnly fun _ => readOnly_pure _
    · exact readOnly_pure _

/-- The request presents the unexpired session of an enabled admin. -/
def IssuedByAdmin (d : ApiDb W) (now : Int) (req : Request) : Prop :=
  presentedSession req ≠ [] ∧
    ∃ u, d.sessionUser now (presentedSession req) = some u ∧ u.role = .admin

/-- The number of statements `authenticate` sends for such a request. -/
def authStatements (token : Str) (req : Request) : ℕ :=
  if carriesToken token req then 0 else 2

/-- An admin's request is recognised by a server that answers. -/
theorem authenticate_of_admin {token : Str} {now : Int} {req : Request} {d : ApiDb W}
    {rs : List Reply} (hi : IssuedByAdmin d now req)
    (hh : Healthy (authStatements token req) rs) :
    ∃ c : Caller, c.role = .admin ∧
      authenticate token now req d rs = ⟨.ok (some c), d, rs.drop (authStatements token req)⟩ := by
  obtain ⟨hne, u, hu, hr⟩ := hi
  unfold authenticate
  unfold authStatements at hh ⊢
  by_cases ht : carriesToken token req = true
  · rw [if_pos ht, if_pos ht]
    exact ⟨_, rfl, rfl⟩
  · rw [if_neg ht] at hh
    rw [if_neg ht, if_neg ht, if_neg hne]
    refine ⟨u.caller, hr, ?_⟩
    have hconn : (connect : Route W Unit) d rs = ⟨.ok (), d, rs.tail⟩ := query_of_healthy hh _ d
    have hq := query_of_healthy (ε := Thrown) hh.next.2
      (fun d : ApiDb W => d.sessionUser now (presentedSession req)) d
    rw [tryCatch_apply]
    simp only [rescue_ok, bind_apply, hconn, hq, hu, andThen_ok, Option.map_some, pure_apply]
    simp [List.drop_drop, ← List.drop_one]

/-- A request that is recognised has had all statements of `authenticate` answered. -/
theorem authenticate_replies {token : Str} {now : Int} {req : Request} {d : ApiDb W}
    {rs : List Reply} {c : Caller} (h : (authenticate token now req d rs).result = .ok (some c)) :
    Healthy (authStatements token req) rs ∧
      (authenticate token now req d rs).replies = rs.drop (authStatements token req) := by
  by_cases ht : carriesToken token req = true
  · have hn : authStatements token req = 0 := if_pos ht
    rw [hn]
    refine ⟨healthy_zero rs, ?_⟩
    unfold authenticate
    rw [if_pos ht]
    rfl
  · have hn : authStatements token req = 2 := if_neg ht
    rw [hn]
    unfold authenticate at h ⊢
    rw [if_neg ht] at h ⊢
    by_cases hs : presentedSession req = []
    · rw [if_pos hs] at h
      cases h
    · rw [if_neg hs, tryCatch_apply] at h ⊢
      revert h
      refine bind_query_induct (motive := fun D => (D.rescue fun _ => pure none).result
        = .ok (some c) → Healthy 2 rs ∧ (D.rescue fun _ => pure none).replies = rs.drop 2) ?_ ?_
      · intro rest h
        cases h
      · intro hr₁
        refine bind_query_induct (motive := fun D => (D.rescue fun _ => pure none).result
          = .ok (some c) → Healthy 2 rs ∧ (D.rescue fun _ => pure none).replies = rs.drop 2) ?_ ?_
        · intro rest h
          cases h
        · intro hr₂ _
          refine ⟨((healthy_zero _).cons hr₂).cons hr₁, ?_⟩
          simp [← List.drop_one, List.drop_drop]

/-- An identity is the static token's or that of an enabled user behind a live session. -/
theorem authenticate_spec (token : Str) (now : Int) (req : Request) (d₀ : ApiDb W) :
    Ensures (fun d => d = d₀) (authenticate token now req) fun r d => d = d₀ ∧
      ∀ c, r = .ok (some c) → carriesToken token req = true ∧ c.role = .admin ∨
        ∃ u, d₀.sessionUser now (presentedSession req) = some u ∧ c = u.caller := by
  unfold authenticate
  refine ensures_ite (fun h => ensures_pure ?_) fun _ => ensures_ite (fun _ => ensures_pure ?_)
    fun _ => ensures_tryCatch (M := fun r d => d = d₀ ∧ ∀ c, r = .ok (some c) →
      ∃ u, d₀.sessionUser now (presentedSession req) = some u ∧ c = u.caller) ?_ ?_ ?_
  · rintro d rfl
    refine ⟨rfl, fun c hc => Or.inl ⟨h, ?_⟩⟩
    cases hc
    rfl
  · rintro d rfl
    exact ⟨rfl, fun c hc => by cases hc⟩
  · refine ensures_bind (connect_readOnly.ensures _) (fun _ => ?_) fun e d hd =>
      ⟨hd, fun c hc => by cases hc⟩
    refine ensures_bind (M := fun r d => d = d₀ ∧ ∀ u, r = .ok u →
      d₀.sessionUser now (presentedSession req) = u) (ensures_query ?_ ?_) (fun u => ?_)
      fun e d hd => ⟨hd.1, fun c hc => by cases hc⟩
    · rintro d rfl
      exact ⟨rfl, fun u hu => by cases hu; rfl⟩
    · rintro d rfl
      exact ⟨rfl, fun u hu => by cases hu⟩
    · refine ensures_pure fun d hd => ⟨hd.1, fun c hc => ?_⟩
      cases u with
      | none => cases hc
      | some u =>
        cases hc
        exact ⟨u, hd.2 _ rfl, rfl⟩
  · rintro c d ⟨hd, hc⟩
    exact ⟨hd, fun c' h => Or.inr (hc c' h)⟩
  · intro e
    exact ensures_pure fun d hd => ⟨hd.1, fun c hc => by cases hc⟩

end StarBase.Api
