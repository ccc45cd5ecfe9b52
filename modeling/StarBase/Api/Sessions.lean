import StarBase.Api.Users

/-!
# Sessions

`POST /login`, `POST /logout` and `POST /me/password`, and where a session that is accepted comes
from.

* `login`, `logout`, `changePassword` — the routes;
* `Issues`, `LogsOut` — the step issued a session, the step ended one;
* `session_step` — **PROVED**: after any request a session was there before and was not ended, or
  the request issued it;
* `origin_of_session` — **PROVED**: in every state reached each session has the login it comes from,
  with no logout since;
* `accepted_session_sound` — **PROVED**: so has every session that `authenticate` accepts, whatever
  the server replies.

Left out are the address and the user agent of a login, and the cookie that its answer sets.
-/

namespace StarBase.Api

open Relational Statements

section Server

variable [Host] {W : Type}

/-- Seven days. -/
def kSessionTtl : Int := 7 * 24 * 3600

/-- Whether a password gives the stored hash. -/
def verifyPassword (password : Str) (h : Hashed) : Bool :=
  if h.iterations < 1 then false
  else if h.salt = [] ∨ h.hash = [] then false
  else decide (Host.pbkdf2 password h.salt h.iterations h.hash.length = h.hash)

def Role.text : Role → Str
  | .admin => "admin".toList
  | .user => "user".toList
  | .readonly => "readonly".toList

/-! ### The routes -/

/-- `INSERT INTO sessions`: refused for a token that is taken or a user that is gone. -/
def ApiDb.insertSession (s : SessionRow) (d : ApiDb W) : Except Thrown (ApiDb W) :=
  if d.sessions.any fun x => Host.collate x.token = Host.collate s.token then
    .error (.std "Duplicate entry".toList)
  else if d.users.rows.any fun u => u.id = s.userId then
    .ok { d with sessions := d.sessions ++ [s] }
  else .error (.std "Cannot add or update a child row".toList)

/-- `SET last_login_at`. -/
def lastLogin (now : Int) : RowUpdate userKeying where
  apply u := { u with lastLoginAt := some now }
  id_apply _ := rfl
  key_apply _ := rfl

/-- `random_hex`; `none` when the random source fails. -/
def randomHex (random : Option Str) : Except Thrown Str :=
  match random with
  | some s => .ok s
  | none => .error (.std "RAND_bytes failed".toList)

/-- `POST /login {username, password}`. -/
def login (now : Int) (random : Option Str) (req : Request) : Route W Response :=
  handled do
    let body ← parseBody req
    let user ← liftE (body.valueStr "username".toList [])
    let pass ← liftE (body.valueStr "password".toList [])
    if user = [] ∨ pass = [] then
      pure (sendError 400 "username and password required".toList)
    else do
      connect
      match ← query fun d => d.user user with
      | none => pure (sendError 401 "invalid credentials".toList)
      | some u =>
        if verifyPassword pass u.pwd = false then
          pure (sendError 401 "invalid credentials".toList)
        else if u.enabled = false then pure (sendError 403 "account is disabled".toList)
        else do
          let sess ← liftE (randomHex random)
          exec (ApiDb.insertSession ⟨sess, u.id, now + kSessionTtl⟩)
          exec fun d => .ok { d with users := d.users.modify (fun x => x.id = u.id) (lastLogin now) }
          pure (sendJson (.obj [("token".toList, .str sess), ("username".toList, .str user),
            ("role".toList, .str u.role.text),
            ("must_change_password".toList, .bool u.mustChangePassword)]) 200)

/-- `DELETE FROM sessions WHERE token = sess`. -/
def ApiDb.deleteSession (sess : Str) (d : ApiDb W) : ApiDb W :=
  { d with sessions := d.sessions.filter fun s => Host.collate s.token ≠ Host.collate sess }

/-- `POST /logout`, best effort. -/
def logout (req : Request) : Route W Response := do
  tryCatch
    (if presentedSession req = [] then pure ()
      else do
        connect
        exec fun d => .ok (d.deleteSession (presentedSession req)))
    fun _ => pure ()
  pure (sendJson (.obj [("ok".toList, .bool true)]) 200)

/-- The update of a password by its owner. -/
def ownPassword (hp : Hashed) : RowUpdate userKeying where
  apply u := { u with pwd := hp, mustChangePassword := false }
  id_apply _ := rfl
  key_apply _ := rfl

/-- `POST /me/password {current_password, new_password}`. -/
def changePassword (token : Str) (now : Int) (salt : Option (List UInt8)) (req : Request) :
    Route W Response := do
  match ← authenticate token now req with
  | none => pure (sendError 401 "log in with a user account to change a password".toList)
  | some c =>
    if c.viaToken then pure (sendError 401 "log in with a user account to change a password".toList)
    else handled do
      let body ← parseBody req
      let cur ← liftE (body.valueStr "current_password".toList [])
      let nw ← liftE (body.valueStr "new_password".toList [])
      if nw.length < 4 then pure (sendError 400 "new password too short".toList)
      else do
        connect
        match ← query fun d => (d.user c.username).map UserRow.pwd with
        | none => pure (sendError 403 "current password is incorrect".toList)
        | some pwd =>
          if verifyPassword cur pwd = false then
            pure (sendError 403 "current password is incorrect".toList)
          else do
            let hp ← liftE (hashPassword salt nw)
            exec fun d => .ok { d with
              users := d.users.modify
                (fun u => Host.collate u.username = Host.collate c.username) (ownPassword hp) }
            pure (sendJson (.obj [("ok".toList, .bool true)]) 200)

/-! ### No route but `login` adds a session -/

/-- No session of `t` is new. -/
def NoNewSession (d t : ApiDb W) : Prop := ∀ s ∈ t.sessions, s ∈ d.sessions

theorem noNewSession_refl (d : ApiDb W) : NoNewSession d d := fun _ h => h

theorem noNewSession_trans (d t u : ApiDb W) (h : NoNewSession d t) (h' : NoNewSession t u) :
    NoNewSession d u :=
  fun s hs => h s (h' s hs)

theorem within_handled {m : Route W Response} (h : Within NoNewSession m) :
    Within NoNewSession (handled m) := by
  refine within_tryCatch noNewSession_trans h fun e => ?_
  cases e <;> exact within_pure noNewSession_refl _

theorem within_requireAdmin {token : Str} {now : Int} {req : Request} {body : Route W Response}
    (h : Within NoNewSession body) : Within NoNewSession (requireAdmin token now req body) := by
  refine within_bind noNewSession_trans
    ((authenticate_readOnly token now req).within noNewSession_refl) fun c => ?_
  cases c with
  | none => exact within_pure noNewSession_refl _
  | some c =>
    dsimp only
    split
    · exact h
    · exact within_pure noNewSession_refl _

theorem within_readOnly_bind {α β : Type} {m : Route W α} {f : α → Route W β} (hm : ReadOnly m)
    (hf : ∀ a, Within NoNewSession (f a)) : Within NoNewSession (m >>= f) :=
  within_bind noNewSession_trans (hm.within noNewSession_refl) hf

/-- A statement that keeps the sessions, and an answer. -/
theorem within_exec_answer {f : ApiDb W → Except Thrown (ApiDb W)} {r : Response}
    (hf : ∀ d t, f d = .ok t → NoNewSession d t) :
    Within NoNewSession (exec f >>= fun _ => pure r : Route W Response) :=
  within_bind noNewSession_trans (within_exec noNewSession_refl hf)
    fun _ => within_pure noNewSession_refl _

theorem postUser_noNewSession (token : Str) (now : Int) (salt : Option (List UInt8))
    (req : Request) : Within NoNewSession (postUser token now salt req : Route W Response) := by
  refine within_requireAdmin (within_handled ?_)
  refine within_readOnly_bind (parseBody_readOnly req) fun body => ?_
  refine within_readOnly_bind (liftE_readOnly _) fun user => ?_
  refine within_readOnly_bind (liftE_readOnly _) fun pass => ?_
  refine within_readOnly_bind (liftE_readOnly _) fun roleText => ?_
  split
  · exact within_pure noNewSession_refl _
  · cases Role.ofText roleText with
    | none => exact within_pure noNewSession_refl _
    | some role =>
      refine within_readOnly_bind connect_readOnly fun _ => ?_
      refine within_readOnly_bind (readOnly_query _) fun ex => ?_
      split
      · exact within_pure noNewSession_refl _
      · refine within_readOnly_bind (liftE_readOnly _) fun hp => ?_
        refine within_readOnly_bind (liftE_readOnly _) fun mustChange => ?_
        refine within_exec_answer fun d t ht => ?_
        unfold ApiDb.insertUser at ht
        split at ht
        · cases ht
        · split at ht
          · cases ht
          · cases ht
            exact noNewSession_refl d

theorem lastAdminGuard_noNewSession {takesAway : Bool} {refusal : Str} {k : Route W Response}
    (hk : Within NoNewSession k) : Within NoNewSession (lastAdminGuard takesAway refusal k) := by
  unfold lastAdminGuard
  split
  · refine within_readOnly_bind (readOnly_query _) fun n => ?_
    split
    · exact within_pure noNewSession_refl _
    · exact hk
  · exact hk

theorem patchRole_noNewSession {body : Json} {current : Role} {k : Option Role → Route W Response}
    (hk : ∀ role, Within NoNewSession (k role)) :
    Within NoNewSession (patchRole body current k) := by
  unfold patchRole
  cases body.at? "role".toList with
  | none => exact hk none
  | some v =>
    refine within_readOnly_bind (liftE_readOnly _) fun text => ?_
    cases Role.ofText text with
    | none => exact within_pure noNewSession_refl _
    | some role => exact lastAdminGuard_noNewSession (hk _)

theorem patchEnabled_noNewSession {body : Json} {current : Role}
    {k : Option Bool → Route W Response} (hk : ∀ enabled, Within NoNewSession (k enabled)) :
    Within NoNewSession (patchEnabled body current k) := by
  unfold patchEnabled
  cases body.at? "enabled".toList with
  | none => exact hk none
  | some v =>
    exact within_readOnly_bind (liftE_readOnly _) fun en => lastAdminGuard_noNewSession (hk _)

theorem patchUser_noNewSession (token : Str) (now : Int) (salt : Option (List UInt8)) (user : Str)
    (req : Request) : Within NoNewSession (patchUser token now salt user req : Route W Response) := by
  refine within_requireAdmin (within_handled ?_)
  refine within_readOnly_bind (parseBody_readOnly req) fun body => ?_
  refine within_readOnly_bind connect_readOnly fun _ => ?_
  refine within_readOnly_bind (readOnly_query _) fun current => ?_
  cases current with
  | none => exact within_pure noNewSession_refl _
  | some current =>
    refine patchRole_noNewSession fun role => patchEnabled_noNewSession fun enabled => ?_
    refine within_readOnly_bind (liftE_readOnly _) fun pwd => ?_
    dsimp only
    split
    · exact within_pure noNewSession_refl _
    · refine within_exec_answer fun d t ht => ?_
      cases ht
      exact noNewSession_refl d

/-- The sessions of a deleted user go with it, all others stay. -/
theorem deleteUser_noNewSession (token : Str) (now : Int) (user : Str) (req : Request) :
    Within NoNewSession (deleteUser token now user req : Route W Response) := by
  refine within_requireAdmin (within_handled ?_)
  refine within_readOnly_bind connect_readOnly fun _ => ?_
  refine within_readOnly_bind (readOnly_query _) fun current => ?_
  cases current with
  | none => exact within_pure noNewSession_refl _
  | some current =>
    have hlast : ReadOnly (isLastAdmin current : Route W Bool) := by
      unfold isLastAdmin
      split
      · exact readOnly_bind (readOnly_query _) fun _ => readOnly_pure _
      · exact readOnly_pure _
    refine within_readOnly_bind hlast fun last => ?_
    split
    · exact within_pure noNewSession_refl _
    · refine within_exec_answer fun d t ht => ?_
      cases ht
      exact fun s hs => List.mem_of_mem_filter hs

theorem changePassword_noNewSession (token : Str) (now : Int) (salt : Option (List UInt8))
    (req : Request) : Within NoNewSession (changePassword token now salt req : Route W Response) := by
  refine within_readOnly_bind (authenticate_readOnly token now req) fun c => ?_
  cases c with
  | none => exact within_pure noNewSession_refl _
  | some c =>
    dsimp only
    split
    · exact within_pure noNewSession_refl _
    · refine within_handled ?_
      refine within_readOnly_bind (parseBody_readOnly req) fun body => ?_
      refine within_readOnly_bind (liftE_readOnly _) fun cur => ?_
      refine within_readOnly_bind (liftE_readOnly _) fun nw => ?_
      split
      · exact within_pure noNewSession_refl _
      · refine within_readOnly_bind connect_readOnly fun _ => ?_
        refine within_readOnly_bind (readOnly_query _) fun pwd => ?_
        cases pwd with
        | none => exact within_pure noNewSession_refl _
        | some pwd =>
          dsimp only
          split
          · exact within_pure noNewSession_refl _
          · refine within_readOnly_bind (liftE_readOnly _) fun hp => ?_
            refine within_exec_answer fun d t ht => ?_
            cases ht
            exact noNewSession_refl d

theorem logout_noNewSession (req : Request) :
    Within NoNewSession (logout req : Route W Response) := by
  refine within_bind noNewSession_trans ?_ fun _ => within_pure noNewSession_refl _
  refine within_tryCatch noNewSession_trans ?_ fun _ => within_pure noNewSession_refl _
  split
  · exact within_pure noNewSession_refl _
  · refine within_readOnly_bind connect_readOnly fun _ => ?_
    refine within_exec noNewSession_refl fun d t ht => ?_
    cases ht
    exact fun s hs => List.mem_of_mem_filter hs

/-! ### Requests and where sessions come from -/

/-- A request of the login and user-management routes. -/
inductive SessionOp
  | login (random : Option Str)
  | logout
  | password (salt : Option (List UInt8))
  | manage (op : UserOp)

/-- A request with the time it is served at and what the server replies to its statements. -/
structure SessionStep where
  op : SessionOp
  req : Request
  now : Int
  replies : List Reply

def SessionStep.route (token : Str) (st : SessionStep) : Route W Response :=
  match st.op with
  | .login random => login st.now random st.req
  | .logout => logout st.req
  | .password salt => changePassword token st.now salt st.req
  | .manage op => UserStep.route token ⟨op, st.req, st.now, st.replies⟩

/-- The database after one request. -/
def SessionStep.after (token : Str) (d : ApiDb W) (st : SessionStep) : ApiDb W :=
  (st.route token d st.replies).store

/-- The step is a login with the password that the row `u` of the user named has then, and the
session `s` is the one it issued for that row. -/
structure Issues (d : ApiDb W) (st : SessionStep) (s : SessionRow) (u : UserRow) : Prop where
  login : st.op = .login (some s.token)
  presented : ∃ body user pass, st.req.body = .ok body ∧
    body.valueStr "username".toList [] = .ok user ∧ body.valueStr "password".toList [] = .ok pass ∧
    d.user user = some u ∧ verifyPassword pass u.pwd = true
  enabled : u.enabled = true
  row : s.userId = u.id
  expires : s.expiresAt = st.now + kSessionTtl

/-- The step is a logout with the token `tok` whose statements the server carries out. -/
structure LogsOut (st : SessionStep) (tok : Str) : Prop where
  logout : st.op = .logout
  presents : presentedSession st.req ≠ []
  token : Host.collate (presentedSession st.req) = Host.collate tok
  served : Healthy 2 st.replies

/-- A login adds at most the session it issues. -/
theorem login_sessions (now : Int) (random : Option Str) (req : Request) (rs : List Reply)
    (d₀ : ApiDb W) :
    Ensures (fun d => d = d₀) (login now random req : Route W Response) fun _ d =>
      ∀ s ∈ d.sessions, s ∈ d₀.sessions ∨ ∃ u, Issues d₀ ⟨.login random, req, now, rs⟩ s u := by
  have hself : ∀ d : ApiDb W, d = d₀ → ∀ s ∈ d.sessions,
      s ∈ d₀.sessions ∨ ∃ u, Issues d₀ ⟨.login random, req, now, rs⟩ s u := by
    intro d hd s hs
    exact Or.inl (hd ▸ hs)
  refine ensures_handled ?_
  cases hbody : req.body with
  | error what =>
    unfold parseBody
    rw [hbody]
    exact fun d rs' hd => hself d hd
  | ok body =>
    unfold parseBody
    rw [hbody]
    dsimp only
    rw [pure_bind]
    cases huser : body.valueStr "username".toList [] with
    | error e => exact fun d rs' hd => hself d hd
    | ok user =>
      cases hpass : body.valueStr "password".toList [] with
      | error e => exact fun d rs' hd => hself d hd
      | ok pass =>
        show Ensures _ (if user = [] ∨ pass = [] then _ else _) _
        refine ensures_ite (fun _ => ensures_pure hself) fun _ => ?_
        refine ensures_bind_readOnly connect_readOnly (fun _ => ?_) hself
        refine ensures_bind_query (hself d₀ rfl) ?_
        cases hu : d₀.user user with
        | none => exact ensures_pure hself
        | some u =>
          refine ensures_ite (fun _ => ensures_pure hself) fun hver => ?_
          refine ensures_ite (fun _ => ensures_pure hself) fun hen => ?_
          cases random with
          | none => exact fun d rs' hd => hself d hd
          | some sess =>
            show Ensures _ (exec _ >>= _) _
            refine ensures_bind (M := fun _ d => ∀ s ∈ d.sessions, s ∈ d₀.sessions ∨
              ∃ u, Issues d₀ ⟨.login (some sess), req, now, rs⟩ s u) (ensures_exec ?_ ?_)
              (fun _ => ?_) fun _ _ h => h
            · exact fun d _ hd => hself d hd
            · intro d t _ hd ht s hs
              subst hd
              unfold ApiDb.insertSession at ht
              split at ht
              · cases ht
              · split at ht
                · cases ht
                  rcases List.mem_append.mp hs with hs | hs
                  · exact Or.inl hs
                  · rw [List.mem_singleton.mp hs]
                    exact Or.inr ⟨u, rfl, ⟨body, user, pass, hbody, huser, hpass, hu,
                      by simpa using hver⟩, by simpa using hen, rfl, rfl⟩
                · cases ht
            · refine ensures_bind (M := fun _ d => ∀ s ∈ d.sessions, s ∈ d₀.sessions ∨
                ∃ u, Issues d₀ ⟨.login (some sess), req, now, rs⟩ s u)
                (ensures_exec (fun _ _ h => h) ?_) (fun _ => ensures_pure fun _ h => h)
                fun _ _ h => h
              intro d t _ hd ht
              cases ht
              exact hd

/-- A logout that is served ends the session. -/
theorem logout_ends (req : Request) (d : ApiDb W) (rs : List Reply)
    (hne : presentedSession req ≠ []) (hserved : Healthy 2 rs) :
    (logout req d rs).store = d.deleteSession (presentedSession req) := by
  have hconn : (connect : Route W Unit) d rs = ⟨.ok (), d, rs.tail⟩ := query_of_healthy hserved _ d
  have hnext := hserved.next.2.next.1
  unfold logout
  rw [if_neg hne, bind_apply, tryCatch_apply, bind_apply, hconn, andThen_ok]
  unfold exec
  rw [hnext]
  rfl

/-- **One request.**  A session after it was there before and is not ended by it, or it was issued
by it. -/
theorem session_step (token : Str) (d : ApiDb W) (st : SessionStep) {s : SessionRow}
    (hs : s ∈ (st.after token d).sessions) :
    (s ∈ d.sessions ∧ ¬ LogsOut st s.token) ∨ ∃ u, Issues d st s u := by
  obtain ⟨op, req, now, rs⟩ := st
  have hkeeps : NoNewSession d (SessionStep.after token d ⟨op, req, now, rs⟩) → op ≠ .logout →
      (s ∈ d.sessions ∧ ¬ LogsOut ⟨op, req, now, rs⟩ s.token) := by
    intro h hop
    exact ⟨h s hs, fun hl => hop hl.logout⟩
  cases op with
  | login random =>
    rcases login_sessions now random req rs d d rs rfl s hs with hold | hnew
    · exact Or.inl ⟨hold, fun hl => by cases hl.logout⟩
    · exact Or.inr hnew
  | logout =>
    refine Or.inl ⟨logout_noNewSession req d rs s hs, fun hl => ?_⟩
    have hs' : s ∈ (logout req d rs).store.sessions := hs
    rw [logout_ends req d rs hl.presents hl.served] at hs'
    have hne : Host.collate s.token ≠ Host.collate (presentedSession req) := by
      simpa using (List.mem_filter.mp hs').2
    exact hne hl.token.symm
  | password salt =>
    exact Or.inl (hkeeps (changePassword_noNewSession token now salt req d rs) (by simp))
  | manage op =>
    cases op with
    | post salt => exact Or.inl (hkeeps (postUser_noNewSession token now salt req d rs) (by simp))
    | patch salt user =>
      exact Or.inl (hkeeps (patchUser_noNewSession token now salt user req d rs) (by simp))
    | delete user =>
      exact Or.inl (hkeeps (deleteUser_noNewSession token now user req d rs) (by simp))

/-- Some step of the run issued the session, and no later one ended it. -/
def Origin (token : Str) (s : SessionRow) (u : UserRow) : ApiDb W → List SessionStep → Prop
  | _, [] => False
  | d, st :: rest =>
    (Issues d st s u ∧ ∀ st' ∈ rest, ¬ LogsOut st' s.token) ∨
      Origin token s u (st.after token d) rest

/-- **Every session of a state reached** was there at the start, and never ended, or has an
origin. -/
theorem origin_of_session (token : Str) (steps : List SessionStep) (d : ApiDb W) {s : SessionRow}
    (hs : s ∈ (steps.foldl (SessionStep.after token) d).sessions) :
    (s ∈ d.sessions ∧ ∀ st ∈ steps, ¬ LogsOut st s.token) ∨ ∃ u, Origin token s u d steps := by
  induction steps generalizing d with
  | nil => exact Or.inl ⟨hs, by simp⟩
  | cons st rest ih =>
    rcases ih (st.after token d) hs with ⟨hmem, hrest⟩ | ⟨u, hu⟩
    · rcases session_step token d st hmem with ⟨hold, hst⟩ | ⟨u, hu⟩
      · refine Or.inl ⟨hold, fun st' hst' => ?_⟩
        rcases List.mem_cons.mp hst' with rfl | hst'
        · exact hst
        · exact hrest st' hst'
      · exact Or.inr ⟨u, Or.inl ⟨hu, hrest⟩⟩
    · exact Or.inr ⟨u, Or.inr hu⟩

/-- The step a session comes from, with the steps before and after it. -/
theorem Origin.split {token : Str} {s : SessionRow} {u : UserRow} {d : ApiDb W}
    {steps : List SessionStep} (h : Origin token s u d steps) :
    ∃ before st after, steps = before ++ st :: after ∧
      Issues (before.foldl (SessionStep.after token) d) st s u ∧
      ∀ st' ∈ after, ¬ LogsOut st' s.token := by
  induction steps generalizing d with
  | nil => exact h.elim
  | cons st rest ih =>
    rcases h with ⟨hissue, hlater⟩ | hrest
    · exact ⟨[], st, rest, rfl, hissue, hlater⟩
    · obtain ⟨before, st', after, hsplit, hissue, hlater⟩ := ih hrest
      exact ⟨st :: before, st', after, by rw [hsplit]; rfl, hissue, hlater⟩

/-- A session that is accepted is in the table, live, and its user's row is there. -/
theorem session_of_authenticate {token : Str} {now : Int} {req : Request} {d : ApiDb W}
    {rs : List Reply} {c : Caller} (h : (authenticate token now req d rs).result = .ok (some c))
    (hvia : c.viaToken = false) :
    ∃ s ∈ d.sessions, Host.collate s.token = Host.collate (presentedSession req) ∧
      now < s.expiresAt ∧ ∃ u ∈ d.users.rows, u.id = s.userId ∧ u.enabled = true ∧
        u.username = c.username ∧ u.role = c.role := by
  rcases (authenticate_spec token now req d d rs rfl).2 c h with ⟨htok, -⟩ | ⟨u, hu, hc⟩
  · -- The static token has an identity of its own.
    unfold authenticate at h
    rw [if_pos htok] at h
    cases h
    cases hvia
  · obtain ⟨s, hs, hfind⟩ := List.exists_of_findSome?_eq_some hu
    split at hfind
    · next hlive =>
      have hrow := List.find?_some hfind
      rw [Bool.and_eq_true, decide_eq_true_eq] at hrow
      refine ⟨s, hs, hlive.1, hlive.2, u, List.mem_of_find?_eq_some hfind, hrow.1, hrow.2, ?_, ?_⟩
      · rw [hc]
        rfl
      · rw [hc]
        rfl
    · cases hfind

/-- **Sessions are sound.**  From a state without sessions, whatever requests are served and however
the server replies: a session that `authenticate` accepts was issued by a login with the password
its user's row had then, less than a session's lifetime ago; it was not logged out since; and the
row is still there, enabled, with the name and role that `authenticate` answers. -/
theorem accepted_session_sound (token : Str) (d : ApiDb W) (hnone : d.sessions = [])
    (steps : List SessionStep) (now : Int) (req : Request) (rs : List Reply) (c : Caller)
    (h : (authenticate token now req (steps.foldl (SessionStep.after token) d) rs).result
      = .ok (some c)) (hvia : c.viaToken = false) :
    ∃ before st after, steps = before ++ st :: after ∧
      ∃ s u, Issues (before.foldl (SessionStep.after token) d) st s u ∧
        Host.collate s.token = Host.collate (presentedSession req) ∧
        now - st.now < kSessionTtl ∧
        (∀ st' ∈ after, ¬ LogsOut st' s.token) ∧
        ∃ v ∈ (steps.foldl (SessionStep.after token) d).users.rows, v.id = u.id ∧
          v.enabled = true ∧ v.username = c.username ∧ v.role = c.role := by
  obtain ⟨s, hs, htok, hlive, v, hv, hid, hen, hname, hrole⟩ := session_of_authenticate h hvia
  rcases origin_of_session token steps d hs with ⟨hold, -⟩ | ⟨u, hu⟩
  · rw [hnone] at hold
    cases hold
  · obtain ⟨before, st, after, hsplit, hissue, hlater⟩ := hu.split
    refine ⟨before, st, after, hsplit, s, u, hissue, htok, ?_, hlater, v, hv, ?_, hen, hname, hrole⟩
    · have hexp := hissue.expires
      omega
    · rw [hid, hissue.row]

end Server

/-! ### One login -/

section OneLogin

attribute [local instance] plainHost

/-- The user `ann` with the password `pw`, and nobody logged in. -/
def onlyAnn : ApiDb Unit where
  users := (Table.empty userKeying).upsert _
    (newUser "ann".toList ⟨[1], Host.pbkdf2 "pw".toList [1] 1 2, 1⟩ .user false)
    (UserPatch.update ⟨none, none, none⟩)
  sessions := []
  rest := ()

def annLogsIn : SessionStep where
  op := .login (some "t".toList)
  req := { body := .ok (.obj [("username".toList, .str "ann".toList),
    ("password".toList, .str "pw".toList)]) }
  now := 0
  replies := []

def annAsks : Request := { cookie := "sb_session=t".toList }

/-- The session `ann` presents comes from her login. -/
theorem accepted_session_sound_one :
    ∃ before st after, [annLogsIn] = before ++ st :: after ∧
      ∃ s u, Issues (before.foldl (SessionStep.after []) onlyAnn) st s u ∧
        Host.collate s.token = Host.collate (presentedSession annAsks) ∧
        100 - st.now < kSessionTtl ∧
        (∀ st' ∈ after, ¬ LogsOut st' s.token) ∧
        ∃ v ∈ ([annLogsIn].foldl (SessionStep.after []) onlyAnn).users.rows, v.id = u.id ∧
          v.enabled = true ∧ v.username = "ann".toList ∧ v.role = .user :=
  accepted_session_sound [] onlyAnn rfl [annLogsIn] 100 annAsks []
    ⟨"ann".toList, .user, false⟩ (by decide) rfl

end OneLogin

end StarBase.Api
