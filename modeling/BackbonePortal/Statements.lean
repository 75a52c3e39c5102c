import BackbonePortal.Store

/-!
# The statements

Every SQL statement the module sends, and what Postgres does with it. A
statement is atomic and so is each of the module's three transactions: its
first write is the conditional UPDATE or the DELETE that fences the rest, and
an error in any part rolls all of it back.
-/

namespace BackbonePortal

open Tables

/-- `sqlx::Error`, as far as the module's statements meet it: a failure of the
database or the connection, a broken constraint, `RowNotFound`. -/
inductive SqlError where
  | fault (text : String)
  | violates (constraint : String)
  | rowNotFound
deriving DecidableEq, Repr

/-- A self-service column, the target of one SET arm. -/
inductive DetailColumn where
  | displayName
  | phone
  | street
  | street2
  | city
  | stateId
  | countryId
  | zip
  | vat
  | companyName
deriving DecidableEq, Repr

def Details.set (d : Details) : DetailColumn → String → Details
  | .displayName, v => { d with displayName := some v }
  | .phone, v => { d with phone := some v }
  | .street, v => { d with street := some v }
  | .street2, v => { d with street2 := some v }
  | .city, v => { d with city := some v }
  | .stateId, v => { d with stateId := some v }
  | .countryId, v => { d with countryId := some v }
  | .zip, v => { d with zip := some v }
  | .vat, v => { d with vat := some v }
  | .companyName, v => { d with companyName := some v }

/-- The row `verify_bearer` reads. -/
structure BearerJoin where
  nonce : String
  expiresAt : Instant
  status : PortalTokenStatus
  userId : Uuid
  email : String
  displayName : Option String
deriving DecidableEq, Repr

/-- The row `redeem` reads. -/
structure InviteJoin where
  recipientEmail : String
  nonce : String
  expiresAt : Instant
  status : PortalInviteStatus
deriving DecidableEq, Repr

/-- One entry of the access history. -/
structure PortalAccessEvent where
  event : String
  occurredAt : Instant
  actor : Option String
deriving DecidableEq, Repr

/-! ## The rows a statement writes -/

/-- `INSERT INTO portal_users (id, email, status) VALUES (…, 'active')`. -/
def PortalUser.fresh (id : Uuid) (email : String) (now : Instant) : PortalUser :=
  { id, email, status := .active, metadata := .inserted now }

def PortalUser.revoke (reason : String) (now : Instant) (u : PortalUser) : PortalUser :=
  { u with
    status := .revoked, revokedAt := some now, revocationReason := some reason
    metadata := u.metadata.touched now }

def PortalUser.link (sapiens : Uuid) (now : Instant) (u : PortalUser) : PortalUser :=
  { u with sapiensUserId := some sapiens, metadata := u.metadata.touched now }

def PortalUser.login (now : Instant) (u : PortalUser) : PortalUser :=
  { u with lastLoginAt := some now, metadata := u.metadata.touched now }

/-- The SET list of `update_my_details`, with its identity stamp. -/
def PortalUser.amend (sets : List (DetailColumn × String)) (by_ : String) (now : Instant) (u : PortalUser) :
    PortalUser :=
  { u with
    details := sets.foldl (fun d s => d.set s.1 s.2) u.details
    metadata := { u.metadata.touched now with updatedBy := some by_ } }

/-- `INSERT INTO portal_tokens (…) VALUES (…, 'active')`. -/
def PortalToken.fresh (id user : Uuid) (nonce : String) (expires now : Instant) : PortalToken :=
  { id, userId := user, tokenNonce := nonce, tokenExpiresAt := expires.stored, status := .active
    metadata := .inserted now }

def PortalToken.rotate (successor : Uuid) (now : Instant) (t : PortalToken) : PortalToken :=
  { t with
    status := .rotated, rotatedAt := some now, rotatedTo := some successor
    metadata := t.metadata.touched now }

def PortalToken.revoke (reason : String) (now : Instant) (t : PortalToken) : PortalToken :=
  { t with
    status := .revoked, revokedAt := some now, revocationReason := some reason
    metadata := t.metadata.touched now }

def PortalToken.use (now : Instant) (t : PortalToken) : PortalToken :=
  { t with lastUsedAt := some now, metadata := t.metadata.touched now }

/-- `INSERT INTO portal_invites (…) VALUES (…, 'pending', …)`. -/
def PortalInvite.fresh (id : Uuid) (email nonce : String) (expires : Instant) (grantedBy : Option Uuid)
    (now : Instant) : PortalInvite :=
  { id, recipientEmail := email, tokenNonce := nonce, tokenExpiresAt := expires.stored, status := .pending
    grantedBy, metadata := .inserted now }

def PortalInvite.redeem (user : Uuid) (now : Instant) (v : PortalInvite) : PortalInvite :=
  { v with
    status := .redeemed, redeemedBy := some user, redeemedAt := some now
    metadata := v.metadata.touched now }

def PortalInvite.revoke (reason : String) (now : Instant) (v : PortalInvite) : PortalInvite :=
  { v with
    status := .revoked, revokedAt := some now, revocationReason := some reason
    metadata := v.metadata.touched now }

def PortalInvite.expire (now : Instant) (v : PortalInvite) : PortalInvite :=
  { v with status := .expired, metadata := v.metadata.touched now }

/-! ## The vocabulary -/

inductive Stmt where
  -- portal_users
  | liveUserByEmail (email : String)
  | touchLastLogin (id : Uuid)
  | insertSignup (id : Uuid) (email : String)
  | revokeUser (id : Uuid) (reason : String)
  | stampSapiens (sapiens : Uuid) (email : String)
  | principalByLink (sapiens : Uuid)
  | userStatus (id : Uuid)
  | viewRow (id : Uuid)
  | updateDetails (id : Uuid) (sets : List (DetailColumn × String))
  -- portal_tokens
  | insertToken (id user : Uuid) (nonce : String) (expires : Instant)
  | bearerById (id : Uuid)
  | touchLastUsed (id : Uuid)
  | rotateToken (id successor user : Uuid) (nonce : String) (expires : Instant)
  | revokeToken (id : Uuid) (reason : String)
  | revokeUserTokens (user : Uuid) (reason : String)
  -- portal_invites
  | insertInvite (id : Uuid) (email nonce : String) (expires : Instant) (grantedBy : Option Uuid)
  | inviteById (id : Uuid)
  | redeemInvite (id user : Uuid) (email : String)
  | revokeInvite (id : Uuid) (reason : String)
  | revokePending (email reason : String)
  | sweepExpired
  -- portal_signup_policies
  | policyEnabled
  | replacePolicy (id : Uuid) (enabled : Bool) (note : Option String) (officer : Option Uuid)
  -- the audit trail
  | appendAudit (event : AuditEvent)
  | accessHistory (user : Uuid) (limit : Nat)

/-- What a statement answers: the row it fetches, the row it returns, or the
number of rows it affected. The two fenced transactions answer whether their
UPDATE found its row. -/
@[reducible] def Stmt.Res : Stmt → Type
  | .liveUserByEmail _ => Option (Uuid × PortalUserStatus)
  | .touchLastLogin _ => Nat
  | .insertSignup _ _ => Option Uuid
  | .revokeUser _ _ => Option String
  | .stampSapiens _ _ => Option Uuid
  | .principalByLink _ => Option Uuid
  | .userStatus _ => Option PortalUserStatus
  | .viewRow _ => Option PortalUser
  | .updateDetails _ _ => Nat
  | .insertToken .. => Unit
  | .bearerById _ => Option BearerJoin
  | .touchLastUsed _ => Nat
  | .rotateToken .. => Bool
  | .revokeToken _ _ => Option Uuid
  | .revokeUserTokens _ _ => Nat
  | .insertInvite .. => Unit
  | .inviteById _ => Option InviteJoin
  | .redeemInvite .. => Bool
  | .revokeInvite _ _ => Nat
  | .revokePending _ _ => Nat
  | .sweepExpired => Nat
  | .policyEnabled => Bool
  | .replacePolicy .. => Unit
  | .appendAudit _ => Unit
  | .accessHistory _ _ => List PortalAccessEvent

/-! ## Execution -/

section
variable {ρ κ ι α : Type} {S : Schema ρ κ ι}

/-- An answer of a table, put back into the database. -/
def Db.written (put : Table S → Db) (answer : List ρ → α) (r : Except String (List ρ × Table S)) :
    Except SqlError (α × Db) :=
  match r with
  | .ok (rs, t) => .ok (answer rs, put t)
  | .error c => .error (.violates c)

end

def Db.updateUsers (db : Db) (p : PortalUser → Bool) (f : PortalUser → PortalUser)
    (hk : ∀ u, userSchema.key (f u) = userSchema.key u) (hi : ∀ u, userSchema.idx (f u) = userSchema.idx u)
    (answer : List PortalUser → α) : Except SqlError (α × Db) :=
  Db.written (fun t => { db with users := t }) answer (db.users.update p f hk hi)

def Db.updateTokens (db : Db) (p : PortalToken → Bool) (f : PortalToken → PortalToken)
    (hk : ∀ t, tokenSchema.key (f t) = tokenSchema.key t) (hi : ∀ t, tokenSchema.idx (f t) = tokenSchema.idx t)
    (answer : List PortalToken → α) : Except SqlError (α × Db) :=
  Db.written (fun t => { db with tokens := t }) answer (db.tokens.update p f hk hi)

def Db.updateInvites (db : Db) (p : PortalInvite → Bool) (f : PortalInvite → PortalInvite)
    (hk : ∀ v, inviteSchema.key (f v) = inviteSchema.key v)
    (hi : ∀ v, inviteSchema.idx (f v) = inviteSchema.idx v) (answer : List PortalInvite → α) :
    Except SqlError (α × Db) :=
  Db.written (fun t => { db with invites := t }) answer (db.invites.update p f hk hi)

/-- A token row under its foreign key to `portal_users`. -/
def Db.insertToken (db : Db) (t : PortalToken) : Except SqlError Db :=
  match db.tokens.insert t with
  | .error c => .error (.violates c)
  | .ok tokens =>
    if (db.users.get t.userId).isNone then .error (.violates "fk_portal_tokens_user_id")
    else .ok { db with tokens }

def Db.insertUser (db : Db) (u : PortalUser) : Except SqlError Db :=
  match db.users.insert u with
  | .error c => .error (.violates c)
  | .ok users => .ok { db with users }

def Stmt.exec (now : Instant) (scan : Nat) (db : Db) : (q : Stmt) → Except SqlError (q.Res × Db)
  | .liveUserByEmail email => .ok ((db.principal email).map fun u => (u.id, u.status), db)
  | .touchLastLogin id =>
    db.updateUsers (fun u => u.id = id) (·.login now) (fun _ => rfl) (fun _ => rfl) List.length
  | .insertSignup id email =>
    match db.users.insert (.fresh id email now) with
    | .ok users => .ok (some id, { db with users })
    -- ON CONFLICT DO NOTHING: of the key or of the unique index
    | .error c =>
      if c = userSchema.pkey ∨ c = userSchema.index then .ok (none, db) else .error (.violates c)
  | .revokeUser id reason =>
    db.updateUsers (fun u => u.id = id && u.status ≠ .revoked && u.live) (·.revoke reason now) (fun _ => rfl)
      (fun _ => rfl) fun rs => rs.head?.map (·.email)
  | .stampSapiens sapiens email =>
    db.updateUsers (fun u => u.email = email && u.sapiensUserId.isNone && u.live) (·.link sapiens now)
      (fun _ => rfl) (fun _ => rfl) fun rs => rs.head?.map (·.id)
  | .principalByLink sapiens =>
    .ok ((reorder scan (db.users.rows.filter fun u => u.sapiensUserId = some sapiens && u.live)).head?.map
      (·.id), db)
  | .userStatus id => .ok (((db.users.get id).filter (·.live)).map (·.status), db)
  | .viewRow id => .ok ((db.users.get id).filter fun u => u.status = .active && u.live, db)
  | .updateDetails id sets =>
    db.updateUsers (fun u => u.id = id && u.status = .active && u.live) (·.amend sets id.display now)
      (fun _ => rfl) (fun _ => rfl) List.length
  | .insertToken id user nonce expires =>
    match db.insertToken (.fresh id user nonce expires now) with
    | .ok db' => .ok ((), db')
    | .error e => .error e
  | .bearerById id =>
    .ok (do
      let t ← (db.tokens.get id).filter (·.live)
      let u ← (db.users.get t.userId).filter (·.live)
      pure ⟨t.tokenNonce, t.tokenExpiresAt, t.status, u.id, u.email, u.details.displayName⟩, db)
  | .touchLastUsed id =>
    db.updateTokens (fun t => t.id = id) (·.use now) (fun _ => rfl) (fun _ => rfl) List.length
  | .rotateToken id successor user nonce expires =>
    match db.tokens.update (fun t => t.id = id && t.status = .active) (·.rotate successor now) (fun _ => rfl)
      (fun _ => rfl) with
    | .error c => .error (.violates c)
    | .ok (rs, tokens) =>
      if rs.length ≠ 1 then .ok (false, db)
      else
        match { db with tokens }.insertToken (.fresh successor user nonce expires now) with
        | .ok db' => .ok (true, db')
        | .error e => .error e
  | .revokeToken id reason =>
    db.updateTokens (fun t => t.id = id && t.status = .active) (·.revoke reason now) (fun _ => rfl)
      (fun _ => rfl) fun rs => rs.head?.map (·.userId)
  | .revokeUserTokens user reason =>
    db.updateTokens (fun t => t.userId = user && t.status = .active) (·.revoke reason now) (fun _ => rfl)
      (fun _ => rfl) List.length
  | .insertInvite id email nonce expires grantedBy =>
    match db.invites.insert (.fresh id email nonce expires grantedBy now) with
    | .ok invites => .ok ((), { db with invites })
    | .error c => .error (.violates c)
  | .inviteById id =>
    .ok (((db.invites.get id).filter (·.live)).map fun v =>
      ⟨v.recipientEmail, v.tokenNonce, v.tokenExpiresAt, v.status⟩, db)
  | .redeemInvite id user email =>
    match db.invites.update (fun v => v.id = id && v.status = .pending) (·.redeem user now) (fun _ => rfl)
      (fun _ => rfl) with
    | .error c => .error (.violates c)
    | .ok (rs, invites) =>
      if rs.length ≠ 1 then .ok (false, db)
      else
        match { db with invites }.insertUser (.fresh user email now) with
        | .ok db' => .ok (true, db')
        | .error e => .error e
  | .revokeInvite id reason =>
    db.updateInvites (fun v => v.id = id && v.status = .pending) (·.revoke reason now) (fun _ => rfl)
      (fun _ => rfl) List.length
  | .revokePending email reason =>
    db.updateInvites (fun v => v.recipientEmail = email && v.status = .pending) (·.revoke reason now)
      (fun _ => rfl) (fun _ => rfl) List.length
  | .sweepExpired =>
    db.updateInvites (fun v => v.status = .pending && v.tokenExpiresAt < now) (·.expire now) (fun _ => rfl)
      (fun _ => rfl) List.length
  | .policyEnabled =>
    match (reorder scan (db.policies.rows.filter (·.live))).head? with
    | some p => .ok (p.enabled, db)
    | none => .error .rowNotFound
  | .replacePolicy id enabled note officer =>
    match (Table.empty : Table policySchema).insert
      { id, enabled, note, updatedBy := officer, metadata := .inserted now } with
    | .ok policies => .ok ((), { db with policies })
    | .error c => .error (.violates c)
  | .appendAudit event => .ok ((), { db with trail := db.trail ++ [⟨event, now⟩] })
  | .accessHistory user limit =>
    let own := db.trail.filter fun a =>
      a.event.subjectType = some "portal.portal_users" && a.event.subjectId = some user.display &&
        a.event.action ∈ ["login_succeeded", "login_refused", "bearer_minted", "bearer_rotated",
          "bearer_revoked"]
    .ok ((((reorder scan own).mergeSort fun a b => b.occurredAt ≤ a.occurredAt).take limit).map fun a =>
      ⟨a.event.action, a.occurredAt, a.event.actor⟩, db)

end BackbonePortal
