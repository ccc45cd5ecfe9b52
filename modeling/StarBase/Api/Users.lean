import StarBase.Lib.Run
import StarBase.Api.Auth

/-!
# User management

`POST /users`, `PATCH /users/:name` and `DELETE /users/:name`, and what sequences of them do to
the administrators.

* `HasEnabledAdmin` — somebody can still log in and manage users;
* `postUser_keeps`, `patchUser_keeps` — **PROVED**: neither route takes the last enabled admin
  away, whatever the server replies;
* `deleteUser_keeps` — **PROVED**: a deletion keeps one under `KeepsAdmin`; the route's own guard
  counts disabled admins too, so it does not imply that condition;
* `deleteUser_locksOut` — **PROVED**: a deletion that does not meet it leaves no enabled admin;
* `hasEnabledAdmin_always_iff` — **PROVED**: the runs that never lock everybody out, exactly.

The listing of the users is left out.
-/

namespace StarBase.Api

open Relational Statements

section Server

variable [Host] {W : Type}

/-! ### Password hashing -/

def kIterations : ℕ := 120000

def kHashLen : ℕ := 32

/-- Hash a password with a fresh random salt; `none` when the random source fails. -/
def hashPassword (salt : Option (List UInt8)) (password : Str) : Except Thrown Hashed :=
  match salt with
  | some s => .ok ⟨s, Host.pbkdf2 password s kIterations kHashLen, kIterations⟩
  | none => .error (.std "RAND_bytes failed".toList)

/-! ### The routes -/

/-- `SELECT COUNT(*) FROM users WHERE role='admin' AND enabled=1`. -/
def ApiDb.enabledAdmins (d : ApiDb W) : ℕ :=
  (d.users.rows.filter fun u => u.role = .admin && u.enabled).length

/-- `SELECT COUNT(*) FROM users WHERE role='admin'`. -/
def ApiDb.admins (d : ApiDb W) : ℕ :=
  (d.users.rows.filter fun u => u.role = .admin).length

/-- The row of a new user. -/
def newUser (user : Str) (hp : Hashed) (role : Role) (mustChange : Bool) :
    RowMaker userKeying (Host.collate user) where
  make id :=
    { id := id
      username := user
      pwd := hp
      role := role
      enabled := true
      mustChangePassword := mustChange
      lastLoginAt := none }
  id_make _ := rfl
  key_make _ := rfl

/-- `INSERT INTO users`: rejected when the name does not fit its column or is taken. -/
def ApiDb.insertUser (user : Str) (hp : Hashed) (role : Role) (mustChange : Bool) (d : ApiDb W) :
    Except Thrown (ApiDb W) :=
  if Host.fits 64 user = false then .error (.std "Data too long for column".toList)
  else if (d.user user).isSome then .error (.std "Duplicate entry".toList)
  else .ok { d with
    users := d.users.upsert (Host.collate user) (newUser user hp role mustChange)
      ⟨id, fun _ => rfl, fun _ => rfl⟩ }

/-- `POST /users {username, password, role?, must_change_password?}`. -/
def postUser (token : Str) (now : Int) (salt : Option (List UInt8)) (req : Request) :
    Route W Response :=
  requireAdmin token now req <| handled do
    let body ← parseBody req
    let user ← liftE (body.valueStr "username".toList [])
    let pass ← liftE (body.valueStr "password".toList [])
    let roleText ← liftE (body.valueStr "role".toList "user".toList)
    if user = [] ∨ pass = [] then
      pure (sendError 400 "username and password required".toList)
    else match Role.ofText roleText with
      | none => pure (sendError 400 "role must be admin, user, or readonly".toList)
      | some role => do
        connect
        let ex ← query fun d => (d.user user).isSome
        if ex then pure (sendError 409 "user already exists".toList)
        else do
          let hp ← liftE (hashPassword salt pass)
          let mustChange ← liftE (body.valueBool "must_change_password".toList false)
          exec (ApiDb.insertUser user hp role mustChange)
          pure (sendJson (.obj [("username".toList, .str user), ("role".toList, .str roleText)])
            201)

/-- The assignments a `PATCH` collects. -/
structure UserPatch where
  role : Option Role := none
  enabled : Option Bool := none
  pwd : Option Hashed := none

def UserPatch.isEmpty (p : UserPatch) : Bool :=
  p.role.isNone && p.enabled.isNone && p.pwd.isNone

/-- `SET role = .., enabled = .., pwd_* = .., must_change_password = 1`. -/
def UserPatch.update (p : UserPatch) : RowUpdate userKeying where
  apply u :=
    { u with
      pwd := p.pwd.getD u.pwd
      role := p.role.getD u.role
      enabled := p.enabled.getD u.enabled
      mustChangePassword := u.mustChangePassword || p.pwd.isSome }
  id_apply _ := rfl
  key_apply _ := rfl

/-- `UPDATE users SET .. WHERE username = user`. -/
def ApiDb.updateUser (user : Str) (p : UserPatch) (d : ApiDb W) : ApiDb W :=
  { d with
    users := d.users.modify (fun u => Host.collate u.username = Host.collate user)
      p.update }

/-- The guard of a change that takes `role` out of the enabled admins: refuse it with `refusal`
when at most one is left, go on with `k` otherwise. -/
def lastAdminGuard (takesAway : Bool) (refusal : Str) (k : Route W Response) :
    Route W Response :=
  if takesAway then do
    let n ← query ApiDb.enabledAdmins
    if n ≤ 1 then pure (sendError 409 refusal) else k
  else k

/-- The `role` part of a `PATCH` of a user whose role is `current`. -/
def patchRole (body : Json) (current : Role) (k : Option Role → Route W Response) :
    Route W Response :=
  match body.at? "role".toList with
  | none => k none
  | some v => do
    match Role.ofText (← liftE v.getStr) with
    | none => pure (sendError 400 "bad role".toList)
    | some role =>
      lastAdminGuard (current = .admin && role ≠ .admin) "cannot demote the last admin".toList
        (k (some role))

/-- The `enabled` part. -/
def patchEnabled (body : Json) (current : Role) (k : Option Bool → Route W Response) :
    Route W Response :=
  match body.at? "enabled".toList with
  | none => k none
  | some v => do
    let en ← liftE v.getBool
    lastAdminGuard (!en && current = .admin) "cannot disable the last admin".toList (k (some en))

/-- The `password` part. -/
def patchPassword (salt : Option (List UInt8)) (body : Json) : Except Thrown (Option Hashed) :=
  match body.at? "password".toList with
  | none => .ok none
  | some v => do
    let hp ← hashPassword salt (← v.getStr)
    .ok (some hp)

/-- `PATCH /users/:name {role?, enabled?, password?}`. -/
def patchUser (token : Str) (now : Int) (salt : Option (List UInt8)) (user : Str)
    (req : Request) : Route W Response :=
  requireAdmin token now req <| handled do
    let body ← parseBody req
    connect
    match ← query fun d => (d.user user).map UserRow.role with
    | none => pure (sendError 404 "no such user".toList)
    | some current =>
      patchRole body current fun role =>
        patchEnabled body current fun enabled => do
          let pwd ← liftE (patchPassword salt body)
          let p : UserPatch := ⟨role, enabled, pwd⟩
          if p.isEmpty then pure (sendError 400 "nothing to update".toList)
          else do
            exec fun d => .ok (d.updateUser user p)
            pure (sendJson (.obj [("updated".toList, .str user)]) 200)

/-- `DELETE FROM users WHERE username = user`; the user's sessions go with it. -/
def ApiDb.deleteUser (user : Str) (d : ApiDb W) : ApiDb W :=
  let users := d.users.deleteWhere fun u => Host.collate u.username = Host.collate user
  { d with
    users := users
    sessions := d.sessions.filter fun s => users.rows.any fun u => u.id = s.userId }

/-- The guard of a deletion: whether an admin is to go while at most one is counted. -/
def isLastAdmin (current : Role) : Route W Bool :=
  if current = .admin then do
    let n ← query ApiDb.admins
    pure (decide (n ≤ 1))
  else pure false

/-- `DELETE /users/:name`. -/
def deleteUser (token : Str) (now : Int) (user : Str) (req : Request) : Route W Response :=
  requireAdmin token now req <| handled do
    connect
    match ← query fun d => (d.user user).map UserRow.role with
    | none => pure (sendError 404 "no such user".toList)
    | some current => do
      let last ← isLastAdmin current
      if last then pure (sendError 409 "cannot delete the last admin".toList)
      else do
        exec fun d => .ok (d.deleteUser user)
        pure (sendJson (.obj [("deleted".toList, .str user)]) 200)

/-! ### Enabled admins -/

/-- Somebody can log in and manage users. -/
def HasEnabledAdmin (d : ApiDb W) : Prop :=
  ∃ u ∈ d.users.rows, u.role = .admin ∧ u.enabled = true

/-- Another enabled admin than the user named `user`. -/
def OtherEnabledAdmin (d : ApiDb W) (user : Str) : Prop :=
  ∃ u ∈ d.users.rows, u.role = .admin ∧ u.enabled = true ∧
    Host.collate u.username ≠ Host.collate user

theorem user_eq_some_iff {d : ApiDb W} {name : Str} {u : UserRow} :
    d.user name = some u ↔
      u ∈ d.users.rows ∧ Host.collate u.username = Host.collate name :=
  Table.get_eq_some_iff

/-- When two enabled admins are counted, one of them is not the user named. -/
theorem otherEnabledAdmin_of_count {d : ApiDb W} (user : Str) (h : 1 < d.enabledAdmins) :
    OtherEnabledAdmin d user := by
  by_contra hno
  have hle : d.enabledAdmins ≤ 1 := by
    refine (d.users.count_le_one_iff _).mpr fun r hr s hs hpr hps => ?_
    have hkey : ∀ u ∈ d.users.rows, (decide (u.role = .admin) && u.enabled) = true →
        Host.collate u.username = Host.collate user := by
      intro u hu hp
      by_contra hne
      have hp' : u.role = .admin ∧ u.enabled = true := by simpa using hp
      exact hno ⟨u, hu, hp'.1, hp'.2, hne⟩
    exact (hkey r hr hpr).trans (hkey s hs hps).symm
  omega

/-- An enabled admin other than the named user, or the named user is the one. -/
theorem HasEnabledAdmin.other_or_self {d : ApiDb W} (h : HasEnabledAdmin d) (user : Str) :
    OtherEnabledAdmin d user ∨
      ∃ u, d.user user = some u ∧ u.role = .admin ∧ u.enabled = true := by
  obtain ⟨u, hu, hr, he⟩ := h
  by_cases hk : Host.collate u.username = Host.collate user
  · exact Or.inr ⟨u, user_eq_some_iff.mpr ⟨hu, hk⟩, hr, he⟩
  · exact Or.inl ⟨u, hu, hr, he, hk⟩

/-! ### What the statements do to them -/

theorem insertUser_keeps {user : Str} {hp : Hashed} {role : Role} {mustChange : Bool}
    {d t : ApiDb W} (h : HasEnabledAdmin d)
    (ht : ApiDb.insertUser user hp role mustChange d = .ok t) : HasEnabledAdmin t := by
  unfold ApiDb.insertUser at ht
  split at ht
  · cases ht
  · split at ht
    · cases ht
    · next hfree =>
      cases ht
      have hnone : d.users.get (Host.collate user) = none := by
        simpa [ApiDb.user] using hfree
      obtain ⟨u, hu, hr, he⟩ := h
      exact ⟨u, Table.mem_upsert_of_none hnone hu, hr, he⟩

theorem updateUser_rows (d : ApiDb W) (user : Str) (p : UserPatch) :
    (d.updateUser user p).users.rows = d.users.rows.map fun u =>
      if decide (Host.collate u.username = Host.collate user) then p.update.apply u else u :=
  rfl

theorem updateUser_keeps_of_other {d : ApiDb W} {user : Str} (p : UserPatch)
    (h : OtherEnabledAdmin d user) : HasEnabledAdmin (d.updateUser user p) := by
  obtain ⟨u, hu, hr, he, hne⟩ := h
  refine ⟨u, ?_, hr, he⟩
  rw [updateUser_rows]
  exact List.mem_map.mpr ⟨u, hu, by simp [hne]⟩

/-- A patch that takes no enabled admin away keeps the named user one. -/
theorem updateUser_keeps_self {d : ApiDb W} {user : Str} {p : UserPatch} {u : UserRow}
    (hu : d.user user = some u) (hr : (p.role.getD u.role) = .admin)
    (he : (p.enabled.getD u.enabled) = true) : HasEnabledAdmin (d.updateUser user p) := by
  obtain ⟨hmem, hk⟩ := user_eq_some_iff.mp hu
  refine ⟨p.update.apply u, ?_, hr, he⟩
  rw [updateUser_rows]
  exact List.mem_map.mpr ⟨u, hmem, by simp [hk]⟩

theorem deleteUser_hasEnabledAdmin_iff {d : ApiDb W} {user : Str} :
    HasEnabledAdmin (d.deleteUser user) ↔ OtherEnabledAdmin d user := by
  unfold HasEnabledAdmin OtherEnabledAdmin ApiDb.deleteUser
  simp only [Table.mem_deleteWhere, decide_eq_false_iff_not]
  constructor
  · intro h
    obtain ⟨u, ⟨hu, hk⟩, hr, he⟩ := h
    exact ⟨u, hu, hr, he, hk⟩
  · intro h
    obtain ⟨u, hu, hr, he, hk⟩ := h
    exact ⟨u, ⟨hu, hk⟩, hr, he⟩

/-! ### What the routes do to them -/

/-- A route behind the admin gate ends where its body does, or where it began. -/
theorem ensures_requireAdmin {P : ApiDb W → Prop} {Q : Except Thrown Response → ApiDb W → Prop}
    {token : Str} {now : Int} {req : Request} {body : Route W Response}
    (hb : Ensures P body Q) (hr : ∀ r s, P s → Q r s) :
    Ensures P (requireAdmin token now req body) Q := by
  refine ensures_bind ((authenticate_readOnly token now req).ensures P) (fun c => ?_)
    fun e s hs => hr _ s hs
  cases c with
  | none => exact ensures_pure fun s hs => hr _ s hs
  | some c =>
    dsimp only
    exact ensures_ite (fun _ => hb) fun _ => ensures_pure fun s hs => hr _ s hs

/-- The `catch` clauses change nothing. -/
theorem ensures_handled {P Q : ApiDb W → Prop} {m : Route W Response}
    (h : Ensures P m fun _ s => Q s) : Ensures P (handled m) fun _ s => Q s := by
  refine ensures_tryCatch h (fun _ _ hs => hs) fun e => ?_
  cases e <;> exact ensures_pure fun _ hs => hs

theorem liftE_readOnly {α : Type} (x : Except Thrown α) : ReadOnly (liftE x : Route W α) := by
  cases x
  · exact fun _ _ => rfl
  · exact readOnly_pure _

theorem parseBody_readOnly (req : Request) : ReadOnly (parseBody req : Route W Json) := by
  unfold parseBody
  split
  · exact readOnly_pure _
  · exact fun _ _ => rfl

theorem postUser_keeps (token : Str) (now : Int) (salt : Option (List UInt8)) (req : Request) :
    Ensures HasEnabledAdmin (postUser token now salt req : Route W Response)
      fun _ d => HasEnabledAdmin d := by
  have hid : ∀ s : ApiDb W, HasEnabledAdmin s → HasEnabledAdmin s := fun _ h => h
  refine ensures_requireAdmin (ensures_handled ?_) fun _ _ h => h
  refine ensures_bind_readOnly (parseBody_readOnly req) (fun body => ?_) hid
  refine ensures_bind_readOnly (liftE_readOnly _) (fun user => ?_) hid
  refine ensures_bind_readOnly (liftE_readOnly _) (fun pass => ?_) hid
  refine ensures_bind_readOnly (liftE_readOnly _) (fun roleText => ?_) hid
  refine ensures_ite (fun _ => ensures_pure hid) fun _ => ?_
  cases Role.ofText roleText with
  | none => exact ensures_pure hid
  | some role =>
    refine ensures_bind_readOnly connect_readOnly (fun _ => ?_) hid
    refine ensures_bind_readOnly (readOnly_query _) (fun ex => ?_) hid
    refine ensures_ite (fun _ => ensures_pure hid) fun _ => ?_
    refine ensures_bind_readOnly (liftE_readOnly _) (fun hp => ?_) hid
    refine ensures_bind_readOnly (liftE_readOnly _) (fun mustChange => ?_) hid
    refine ensures_bind (M := fun _ d => HasEnabledAdmin d) ?_ (fun _ => ensures_pure hid)
      fun _ _ h => h
    exact ensures_exec (fun _ _ h => h) fun _ _ _ h ht => insertUser_keeps h ht

/-- The guard lets `k` run in a store that is unchanged and, when the change takes the role away,
counts two enabled admins. -/
theorem ensures_lastAdminGuard {d₀ : ApiDb W} {Q : ApiDb W → Prop} {takesAway : Bool}
    {refusal : Str} {k : Route W Response} (hQ : Q d₀)
    (hk : (takesAway = true → 1 < d₀.enabledAdmins) → Ensures (fun d => d = d₀) k fun _ d => Q d) :
    Ensures (fun d => d = d₀) (lastAdminGuard takesAway refusal k) fun _ d => Q d := by
  unfold lastAdminGuard
  refine ensures_ite (fun _ => ensures_bind_query hQ ?_) fun h => hk fun h' => absurd h' h
  by_cases hn : d₀.enabledAdmins ≤ 1
  · rw [if_pos hn]
    exact ensures_pure fun s hs => hs ▸ hQ
  · rw [if_neg hn]
    exact hk fun _ => by omega

theorem ensures_patchRole {d₀ : ApiDb W} {Q : ApiDb W → Prop} {body : Json} {current : Role}
    {k : Option Role → Route W Response} (hQ : Q d₀)
    (hk : ∀ role, (current = .admin → role.getD current ≠ .admin → 1 < d₀.enabledAdmins) →
      Ensures (fun d => d = d₀) (k role) fun _ d => Q d) :
    Ensures (fun d => d = d₀) (patchRole body current k) fun _ d => Q d := by
  have hid : ∀ s : ApiDb W, s = d₀ → Q s := fun s hs => hs ▸ hQ
  unfold patchRole
  cases body.at? "role".toList with
  | none => exact hk none fun hc hne => absurd hc hne
  | some v =>
    refine ensures_bind_readOnly (liftE_readOnly _) (fun text => ?_) hid
    cases Role.ofText text with
    | none => exact ensures_pure hid
    | some role =>
      refine ensures_lastAdminGuard hQ fun hcount => hk (some role) fun hc hne => hcount ?_
      simpa [hc] using hne

theorem ensures_patchEnabled {d₀ : ApiDb W} {Q : ApiDb W → Prop} {body : Json} {current : Role}
    {k : Option Bool → Route W Response} (hQ : Q d₀)
    (hk : ∀ enabled, (current = .admin → enabled = some false → 1 < d₀.enabledAdmins) →
      Ensures (fun d => d = d₀) (k enabled) fun _ d => Q d) :
    Ensures (fun d => d = d₀) (patchEnabled body current k) fun _ d => Q d := by
  have hid : ∀ s : ApiDb W, s = d₀ → Q s := fun s hs => hs ▸ hQ
  unfold patchEnabled
  cases body.at? "enabled".toList with
  | none => exact hk none fun _ h => by cases h
  | some v =>
    refine ensures_bind_readOnly (liftE_readOnly _) (fun en => ?_) hid
    refine ensures_lastAdminGuard hQ fun hcount => hk (some en) fun hc hne => hcount ?_
    cases hne
    simp [hc]

theorem patchUser_keeps (token : Str) (now : Int) (salt : Option (List UInt8)) (user : Str)
    (req : Request) :
    Ensures HasEnabledAdmin (patchUser token now salt user req : Route W Response)
      fun _ d => HasEnabledAdmin d := by
  have hid : ∀ s : ApiDb W, HasEnabledAdmin s → HasEnabledAdmin s := fun _ h => h
  refine ensures_requireAdmin (ensures_handled ?_) fun _ _ h => h
  refine ensures_bind_readOnly (parseBody_readOnly req) (fun body => ?_) hid
  refine ensures_bind_readOnly connect_readOnly (fun _ => ?_) hid
  intro d₀ rs h₀
  suffices h : Ensures (fun d => d = d₀) _ fun _ d => HasEnabledAdmin d from h d₀ rs rfl
  have hself : ∀ s : ApiDb W, s = d₀ → HasEnabledAdmin s := fun s hs => hs ▸ h₀
  refine ensures_bind_query h₀ ?_
  cases hu : d₀.user user with
  | none => exact ensures_pure hself
  | some u =>
    refine ensures_patchRole h₀ fun role hrole => ensures_patchEnabled h₀ fun enabled hen => ?_
    refine ensures_bind_readOnly (liftE_readOnly _) (fun pwd => ?_) hself
    refine ensures_ite (fun _ => ensures_pure hself) fun _ => ?_
    refine ensures_bind (M := fun _ d => HasEnabledAdmin d) (ensures_exec ?_ ?_)
      (fun _ => ensures_pure hid) fun _ _ h => h
    · intro s _ hs
      exact hself s hs
    · intro s t _ hs ht
      cases ht
      subst hs
      -- the named user stays an enabled admin, or the guard has counted another one
      by_cases hcount : 1 < s.enabledAdmins
      · exact updateUser_keeps_of_other _ (otherEnabledAdmin_of_count user hcount)
      · rcases h₀.other_or_self user with hother | ⟨v, hv, hr, he⟩
        · exact updateUser_keeps_of_other _ hother
        · obtain rfl : u = v := Option.some.inj (hu.symm.trans hv)
          refine updateUser_keeps_self hu ?_ ?_
          · by_contra hne
            exact hcount (hrole hr hne)
          · cases enabled with
            | none => exact he
            | some en =>
              cases en with
              | true => rfl
              | false => exact absurd (hen hr rfl) hcount

/-! ### Deletion -/

/-- The user named `user` is the only row with the role admin. -/
def SoleAdmin (d : ApiDb W) (user : Str) : Prop :=
  ∀ u ∈ d.users.rows, u.role = .admin → Host.collate u.username = Host.collate user

/-- The route's guard counts one admin exactly when the named admin is the only one. -/
theorem admins_le_one_iff {d : ApiDb W} {user : Str} {u : UserRow} (hu : d.user user = some u)
    (hr : u.role = .admin) : d.admins ≤ 1 ↔ SoleAdmin d user := by
  obtain ⟨hmem, hk⟩ := user_eq_some_iff.mp hu
  have hcount := d.users.count_le_one_iff fun u => decide (u.role = .admin)
  constructor
  · intro h v hv hvr
    exact (hcount.mp h v hv u hmem (by simpa using hvr) (by simpa using hr)).trans hk
  · intro h
    refine hcount.mpr fun r hr s hs hpr hps => ?_
    exact (h r hr (by simpa using hpr)).trans (h s hs (by simpa using hps)).symm

/-- A deletion that takes no administration away: the user is no enabled admin, or another enabled
admin stays, or the user is the only admin, disabled ones counted, and the route refuses. -/
def KeepsAdmin (d : ApiDb W) (user : Str) : Prop :=
  (∀ u, d.user user = some u → ¬ (u.role = .admin ∧ u.enabled = true)) ∨
    OtherEnabledAdmin d user ∨ SoleAdmin d user

/-- The server answers the statements up to the `DELETE` of the route and carries that out. -/
def DeleteServed (token : Str) (req : Request) (rs : List Reply) : Prop :=
  Healthy (authStatements token req + 3) rs ∧
    (nextReply (rs.drop (authStatements token req + 3))).1 ≠ .failed

/-- In a store that is known, the guard answers what it counts there. -/
theorem ensures_bind_isLastAdmin {d₀ : ApiDb W} {Q : ApiDb W → Prop} {current : Role}
    {k : Bool → Route W Response} (hQ : Q d₀)
    (hk : Ensures (fun d => d = d₀) (k (decide (current = .admin ∧ d₀.admins ≤ 1)))
      fun _ d => Q d) :
    Ensures (fun d => d = d₀) (isLastAdmin current >>= k) fun _ d => Q d := by
  unfold isLastAdmin
  by_cases hadm : current = .admin
  · rw [if_pos hadm, bind_assoc]
    refine ensures_bind_query hQ ?_
    simpa [hadm] using hk
  · rw [if_neg hadm]
    simpa [hadm] using hk

theorem deleteUser_keeps (token : Str) (now : Int) (user : Str) (req : Request) (d₀ : ApiDb W)
    (h₀ : HasEnabledAdmin d₀) (hk : KeepsAdmin d₀ user) :
    Ensures (fun d => d = d₀) (deleteUser token now user req : Route W Response)
      fun _ d => HasEnabledAdmin d := by
  have hself : ∀ s : ApiDb W, s = d₀ → HasEnabledAdmin s := fun s hs => hs ▸ h₀
  have hid : ∀ s : ApiDb W, HasEnabledAdmin s → HasEnabledAdmin s := fun _ h => h
  refine ensures_requireAdmin (ensures_handled ?_) fun _ s hs => hself s hs
  refine ensures_bind_readOnly connect_readOnly (fun _ => ?_) hself
  refine ensures_bind_query h₀ ?_
  cases hu : d₀.user user with
  | none => exact ensures_pure hself
  | some u =>
    refine ensures_bind_isLastAdmin h₀ ?_
    refine ensures_ite (fun _ => ensures_pure hself) fun hlast => ?_
    refine ensures_bind (M := fun _ d => HasEnabledAdmin d) (ensures_exec ?_ ?_)
      (fun _ => ensures_pure hid) fun _ _ h => h
    · intro s _ hs
      exact hself s hs
    · intro s t _ hs ht
      cases ht
      subst hs
      refine deleteUser_hasEnabledAdmin_iff.mpr ?_
      rcases h₀.other_or_self user with h | ⟨v, hv, hr, he⟩
      · exact h
      · obtain rfl : u = v := Option.some.inj (hu.symm.trans hv)
        rcases hk with hno | hother | hsole
        · exact absurd ⟨hr, he⟩ (hno u hu)
        · exact hother
        · -- the guard would have refused
          exact absurd (by simpa [hr] using (admins_le_one_iff hu hr).mpr hsole) hlast

theorem handled_store (m : Route W Response) (d : ApiDb W) (rs : List Reply) :
    (handled m d rs).store = (m d rs).store := by
  unfold handled
  rw [tryCatch_apply, Done.rescue]
  cases (m d rs).result with
  | ok a => rfl
  | error e => cases e <;> rfl

/-- An admin's deletion that the server serves removes the user, the guard permitting. -/
theorem deleteUser_store {token : Str} {now : Int} {user : Str} {req : Request} {d : ApiDb W}
    {rs : List Reply} {u : UserRow} (hi : IssuedByAdmin d now req)
    (hs : DeleteServed token req rs) (hu : d.user user = some u) (hr : u.role = .admin)
    (hadm : ¬ d.admins ≤ 1) :
    (deleteUser token now user req d rs).store = d.deleteUser user := by
  obtain ⟨hh, hlast⟩ := hs
  obtain ⟨hauth, hrest⟩ := hh.drop
  obtain ⟨c, hc, ha⟩ := authenticate_of_admin hi hauth
  have hconn : (connect : Route W Unit) d (rs.drop (authStatements token req))
      = ⟨.ok (), d, (rs.drop (authStatements token req)).tail⟩ := query_of_healthy hrest _ d
  have hrole := query_of_healthy (ε := Thrown) hrest.next.2
    (fun d : ApiDb W => (d.user user).map UserRow.role) d
  have hcount := query_of_healthy (ε := Thrown) hrest.next.2.next.2 (ApiDb.admins (W := W)) d
  unfold deleteUser requireAdmin
  rw [bind_apply, ha, andThen_ok]
  dsimp only
  rw [if_pos hc, handled_store, bind_apply, hconn, andThen_ok, bind_apply, hrole, andThen_ok, hu]
  simp only [Option.map_some, hr, isLastAdmin, if_true, bind_assoc, pure_bind]
  rw [bind_apply, hcount, andThen_ok, if_neg (by simpa using hadm), bind_apply]
  have hdrop : (rs.drop (authStatements token req)).tail.tail.tail
      = rs.drop (authStatements token req + 3) := by
    simp [← List.drop_one, List.drop_drop]
  rw [hdrop]
  have hex := exec_store_of_reply (ε := Thrown) (f := fun d : ApiDb W => .ok (d.deleteUser user))
    (s := d) hlast rfl
  unfold Done.andThen
  split
  · exact hex
  · exact hex

/-- A deletion of an admin that the server does not serve to the end changes nothing. -/
theorem deleteUser_store_of_not_served {token : Str} {now : Int} {user : Str} {req : Request}
    {d : ApiDb W} {rs : List Reply} {u : UserRow} (hu : d.user user = some u)
    (hr : u.role = .admin) (hs : ¬ DeleteServed token req rs) :
    (deleteUser token now user req d rs).store = d := by
  have hauth := authenticate_readOnly token now req d rs
  unfold deleteUser requireAdmin
  rw [bind_apply, Done.andThen]
  cases hres : (authenticate token now req d rs).result with
  | error e => exact hauth
  | ok c =>
    cases c with
    | none => exact hauth
    | some c =>
      dsimp only
      obtain ⟨hg, hrest⟩ := authenticate_replies hres
      rw [hauth, hrest]
      by_cases hc : c.role = .admin
      · rw [if_pos hc, handled_store]
        refine bind_query_induct (motive := fun D => D.store = d) (fun _ => rfl) fun hr₁ => ?_
        refine bind_query_induct (motive := fun D => D.store = d) (fun _ => rfl) fun hr₂ => ?_
        rw [hu]
        simp only [Option.map_some, hr, isLastAdmin, if_true, bind_assoc, pure_bind]
        refine bind_query_induct (motive := fun D => D.store = d) (fun _ => rfl) fun hr₃ => ?_
        by_cases hn : d.admins ≤ 1
        · rw [if_pos (by simpa using hn)]
          rfl
        · rw [if_neg (by simpa using hn), bind_apply]
          have hh : Healthy (authStatements token req + 3) rs :=
            healthy_add hg ((((healthy_zero _).cons hr₃).cons hr₂).cons hr₁)
          have hdrop : (rs.drop (authStatements token req)).tail.tail.tail
              = rs.drop (authStatements token req + 3) := by
            simp [← List.drop_one, List.drop_drop]
          have hex : (exec (fun d : ApiDb W => .ok (d.deleteUser user)) d
              (rs.drop (authStatements token req + 3)) : Done _ Thrown _).store = d := by
            refine exec_store_of_failed ?_
            by_contra hne
            exact hs ⟨hh, hne⟩
          rw [hdrop]
          unfold Done.andThen
          split
          · exact hex
          · exact hex
      · rw [if_neg hc]
        rfl

/-- **Deleting the last enabled admin.**  While a disabled admin exists, the guard lets an admin's
deletion of the only enabled admin through. -/
theorem deleteUser_locksOut {token : Str} {now : Int} {user : Str} {req : Request} {d : ApiDb W}
    {rs : List Reply} (hi : IssuedByAdmin d now req) (hs : DeleteServed token req rs)
    (hk : ¬ KeepsAdmin d user) :
    ¬ HasEnabledAdmin (deleteUser token now user req d rs).store := by
  unfold KeepsAdmin at hk
  push Not at hk
  obtain ⟨⟨u, hu, hr, _⟩, hother, hsole⟩ := hk
  rw [deleteUser_store hi hs hu hr fun hle => hsole ((admins_le_one_iff hu hr).mp hle),
    deleteUser_hasEnabledAdmin_iff]
  exact hother

/-! ### Runs of user management -/

/-- A user-management request. -/
inductive UserOp
  | post (salt : Option (List UInt8))
  | patch (salt : Option (List UInt8)) (user : Str)
  | delete (user : Str)

/-- A request with the time it is served at and what the server replies to its statements. -/
structure UserStep where
  op : UserOp
  req : Request
  now : Int
  replies : List Reply

def UserStep.route (token : Str) (st : UserStep) : Route W Response :=
  match st.op with
  | .post salt => postUser token st.now salt st.req
  | .patch salt user => patchUser token st.now salt user st.req
  | .delete user => deleteUser token st.now user st.req

/-- The database after one request. -/
def UserStep.after (token : Str) (d : ApiDb W) (st : UserStep) : ApiDb W :=
  (st.route token d st.replies).store

/-- The request is issued by an enabled admin at the moment it is served. -/
def UserStep.Issued (d : ApiDb W) (st : UserStep) : Prop := IssuedByAdmin d st.now st.req

/-- A request that takes no administration away: only a deletion can. -/
def UserStep.KeepsAdmin (token : Str) (d : ApiDb W) (st : UserStep) : Prop :=
  match st.op with
  | .delete user => Api.KeepsAdmin d user ∨ ¬ DeleteServed token st.req st.replies
  | _ => True

/-- What one request does to the administration. -/
theorem UserStep.after_hasEnabledAdmin_iff (token : Str) (d : ApiDb W) (st : UserStep)
    (h : HasEnabledAdmin d) (hi : st.Issued d) :
    HasEnabledAdmin (st.after token d) ↔ st.KeepsAdmin token d := by
  obtain ⟨op, req, now, rs⟩ := st
  cases op with
  | post salt => exact ⟨fun _ => trivial, fun _ => postUser_keeps token now salt req d rs h⟩
  | patch salt user =>
    exact ⟨fun _ => trivial, fun _ => patchUser_keeps token now salt user req d rs h⟩
  | delete user =>
    constructor
    · intro hafter
      by_contra hk
      obtain ⟨hkeep, hserved⟩ := not_or.mp hk
      exact deleteUser_locksOut hi (not_not.mp hserved) hkeep hafter
    · intro hk
      by_cases hkeep : Api.KeepsAdmin d user
      · exact deleteUser_keeps token now user req d h hkeep d rs rfl
      · have hserved : ¬ DeleteServed token req rs := hk.resolve_left hkeep
        obtain ⟨u, hu, hadm⟩ : ∃ u, d.user user = some u ∧ u.role = .admin := by
          by_contra hno
          exact hkeep (Or.inl fun u hu ha => hno ⟨u, hu, ha.1⟩)
        have hsame : (deleteUser token now user req d rs).store = d :=
          deleteUser_store_of_not_served hu hadm hserved
        show HasEnabledAdmin (deleteUser token now user req d rs).store
        rw [hsame]
        exact h

/-- **Never locked out, exactly.**  From a state with an enabled admin, a run of user-management
requests issued by enabled admins keeps one in every state reached exactly if each of its deletions
takes no administration away. -/
theorem hasEnabledAdmin_always_iff (token : Str) (d : ApiDb W) (steps : List UserStep)
    (h : HasEnabledAdmin d)
    (hi : Run.Each (fun d st => UserStep.after token d st) (fun d st => st.Issued d) d steps) :
    Run.Always (fun d st => UserStep.after token d st) HasEnabledAdmin d steps ↔
      Run.Each (fun d st => UserStep.after token d st) (fun d st => st.KeepsAdmin token d) d steps :=
  Run.always_iff_each (fun d st hd hst => st.after_hasEnabledAdmin_iff token d hd hst) h hi

end Server

/-! ### A run that locks everybody out -/

section Lockout

attribute [local instance] plainHost

instance {W : Type} (d : ApiDb W) : Decidable (HasEnabledAdmin d) :=
  inferInstanceAs (Decidable (∃ u ∈ d.users.rows, u.role = .admin ∧ u.enabled = true))

instance {W : Type} (d : ApiDb W) (user : Str) : Decidable (OtherEnabledAdmin d user) :=
  inferInstanceAs (Decidable (∃ u ∈ d.users.rows, u.role = .admin ∧ u.enabled = true ∧
    Host.collate u.username ≠ Host.collate user))

/-- Two admins, `ann` enabled and `bob` with the given flag, and a live session of `ann`. -/
def twoAdmins (bobEnabled : Bool) : ApiDb Unit where
  users :=
    (((Table.empty userKeying).upsert _ (newUser "ann".toList ⟨[], [], 1⟩ .admin false)
        ⟨id, fun _ => rfl, fun _ => rfl⟩).upsert _
      (newUser "bob".toList ⟨[], [], 1⟩ .admin false) ⟨id, fun _ => rfl, fun _ => rfl⟩).modify
      (fun u => u.username = "bob".toList)
      (UserPatch.update ⟨none, some bobEnabled, none⟩)
  sessions := [⟨"t".toList, 1, 100⟩]
  rest := ()

/-- `ann` deletes the user named. -/
def annDeletes (user : Str) : UserStep where
  op := .delete user
  req := { cookie := "sb_session=t".toList }
  now := 0
  replies := []

theorem annDeletes_issued (b : Bool) (user : Str) : (annDeletes user).Issued (twoAdmins b) := by
  have hann : ∀ b, ((twoAdmins b).sessionUser 0 "t".toList).map UserRow.role = some .admin := by
    decide
  obtain ⟨u, hu, hr⟩ := Option.map_eq_some_iff.mp (hann b)
  have hne : presentedSession (annDeletes user).req = "t".toList := rfl
  exact ⟨by rw [hne]; decide, u, hu, hr⟩

/-- While both admins are enabled, `ann` may delete `bob`. -/
theorem hasEnabledAdmin_always_two : Run.Always (fun d st => UserStep.after [] d st)
    HasEnabledAdmin (twoAdmins true) [annDeletes "bob".toList] :=
  (hasEnabledAdmin_always_iff [] (twoAdmins true) [annDeletes "bob".toList] (by decide)
    ⟨annDeletes_issued true _, trivial⟩).mpr
    ⟨Or.inl (Or.inr (Or.inl (by decide))), trivial⟩

/-- With `bob` disabled, `ann` can delete her own account, and nobody can log in any more. -/
theorem annDeletes_herself_locksOut :
    HasEnabledAdmin (twoAdmins false) ∧
      Run.Each (fun d st => UserStep.after [] d st) (fun d st => st.Issued d) (twoAdmins false)
        [annDeletes "ann".toList] ∧
      ¬ Run.Always (fun d st => UserStep.after [] d st) HasEnabledAdmin (twoAdmins false)
        [annDeletes "ann".toList] :=
  ⟨by decide, ⟨annDeletes_issued false _, trivial⟩, by decide⟩

end Lockout

end StarBase.Api
