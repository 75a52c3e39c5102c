import BackbonePortal.Actions

/-!
# Credentials

The audit row shape, the capability links shared by bearers and invitations,
and the bearer verbs of the token service.
-/

namespace BackbonePortal

open Proc

/-! ## One audited fact -/

/-- The most specific id is the subject of the row, the others fold into `changed`. -/
def recordAudit (action : String) (actor : Option String) (portalUserId inviteId tokenId : Option Uuid)
    (detail : Json) : AuditEvent :=
  let subject : Option String × Option Uuid :=
    match tokenId, inviteId, portalUserId with
    | some t, _, _ => (some "portal.portal_tokens", some t)
    | _, some i, _ => (some "portal.portal_invitations", some i)
    | _, _, some u => (some "portal.portal_users", some u)
    | _, _, _ => (none, none)
  let changed := match detail with
    | .obj fields => fields
    | other => Json.insert "detail" other []
  let fold (key type : String) (id : Option Uuid) (fields : List (String × Json)) : List (String × Json) :=
    match id with
    | some v => if subject.1 = some type then fields else Json.insert key (.str v.display) fields
    | none => fields
  { eventType := .dataChange
    action
    subjectType := subject.1
    subjectId := subject.2.map Uuid.display
    changed := some (.obj (fold "token_id" "portal.portal_tokens" tokenId
      (fold "invite_id" "portal.portal_invitations" inviteId
        (fold "portal_user_id" "portal.portal_users" portalUserId changed))))
    reason := none
    status := .success
    actor }

/-- The services' `audit` helpers: `record_audit_on_pool` followed by `?`. The
audit transaction is one statement, which a refusing trail fails. -/
abbrev audit (action : String) (portalUserId inviteId tokenId : Option Uuid) (actor : String) (detail : Json) :
    Verb Unit :=
  query (.appendAudit (recordAudit action (some actor) portalUserId inviteId tokenId detail))

/-! ## Capability links -/

structure ParsedCapability where
  id : Uuid
  nonce : String
  exp : Int
  mac : String
deriving DecidableEq, Repr

/-- `{id}.{nonce}.{exp}.{mac}`, anything else is malformed. -/
def parseCapability (link : String) : Option ParsedCapability :=
  match splitAt '.' link with
  | [id, nonce, exp, mac] => do
    let id ← Uuid.parse id
    if nonce = "" ∨ allHex nonce = false then none
    else do
      let exp ← parseI64 exp
      if byteLen mac ≠ 64 ∨ allHex mac = false then none else some ⟨id, nonce, exp, mac⟩
  | _ => none

/-- The MAC input: the domain keeps the grant families distinct under one key. -/
def capabilityMacInput (domain : String) (id : Uuid) (nonce grant : String) (exp : Int) : String :=
  domain ++ "|" ++ id.display ++ "." ++ nonce ++ "." ++ grant ++ "." ++ toString exp

def domainBearer : String := "portal-bearer"
def domainInvite : String := "portal-invite"

def defaultBearerTtlHours : Int := 24
def defaultInviteTtlDays : Int := 14

def renderLink (id : Uuid) (nonce : String) (exp : Int) (mac : String) : String :=
  id.display ++ "." ++ nonce ++ "." ++ toString exp ++ "." ++ mac

def ofExcept : Except PortalError α → Verb α
  | .ok a => .ret a
  | .error e => refuse e

@[simp] theorem ofExcept_ok (a : α) : ofExcept (.ok a) = .ret a := rfl

@[simp] theorem ofExcept_error (e : PortalError) : (ofExcept (.error e) : Verb α) = refuse e := rfl

/-- `now + Duration::hours(n)` or `Duration::days(n)`: out of range panics. -/
def lifetime (unit : String) (perUnit n : Int) (now : Instant) : Verb Instant :=
  if 9223372036854775 < n * perUnit then .fail (.panicked ("TimeDelta::" ++ unit ++ " out of bounds"))
  else if maxUtc < now + seconds (n * perUnit) then .fail (.panicked "`DateTime + TimeDelta` overflowed")
  else .ret (now + seconds (n * perUnit))

def hoursAfter : Int → Instant → Verb Instant := lifetime "hours" 3600

def daysAfter : Int → Instant → Verb Instant := lifetime "days" 86400

/-- The verified principal of a bearer. -/
structure PortalPrincipal where
  userId : Uuid
  email : String
  displayName : Option String
deriving DecidableEq, Repr

namespace Portal

variable (P : Portal)

/-- Lower-case hex of the MAC; HMAC takes keys of any length. -/
def computeMac (secret : List UInt8) (input : String) : String := hexOf (P.hmacSha256 secret input)

/-- A candidate that is no hex string is a refusal. -/
def verifyMac (secret : List UInt8) (input provided : String) : Bool :=
  match hexDecode provided with
  | some bs => bs = P.hmacSha256 secret input
  | none => false

/-- The configured bearer secret; an empty one is not a secret. -/
def secret : Except PortalError (List UInt8) :=
  if P.bearerSecret = [] then .error .bearerSecretNotConfigured else .ok P.bearerSecret

def bearerGrant (user : Uuid) : String := "portal_bearer:" ++ user.display

def inviteGrant (email : String) : String := "portal_invite:" ++ email

def bearerLink (id user : Uuid) (nonce : String) (expires : Instant) : Except PortalError String := do
  let secret ← P.secret
  let exp := expires.timestamp
  pure (renderLink id nonce exp
    (P.computeMac secret (capabilityMacInput domainBearer id nonce (bearerGrant user) exp)))

def inviteLink (id : Uuid) (nonce email : String) (exp : Int) : Except PortalError String := do
  let secret ← P.secret
  pure (renderLink id nonce exp
    (P.computeMac secret (capabilityMacInput domainInvite id nonce (inviteGrant email) exp)))

/-- The MAC arm of redemption, over the stored row. -/
def verifyInviteMac (id : Uuid) (storedNonce email : String) (storedExp : Int) (providedMac : String) : Bool :=
  match P.secret with
  | .ok secret =>
    P.verifyMac secret
      (capabilityMacInput domainInvite id storedNonce (inviteGrant email) storedExp) providedMac
  | .error _ => false

/-! ## The bearer -/

def mintBearer (user : Uuid) (ttlHours : Int) : Verb String := do
  let _ ← ofExcept P.secret
  let id ← newUuid
  let nonce ← mintNonce
  let now ← utcNow
  let expires ← hoursAfter (max ttlHours 1) now
  query (.insertToken id user nonce expires)
  audit "bearer_minted" (some user) none (some id) "system"
    (.object [("expires_at", .str expires.toRfc3339)])
  ofExcept (P.bearerLink id user nonce expires)

/-- The MAC, nonce and expiry of a presented link agree with the stored row. -/
def bearerAgrees (secret : List UInt8) (parts : ParsedCapability) (row : BearerJoin) : Bool :=
  P.verifyMac secret (capabilityMacInput domainBearer parts.id row.nonce (bearerGrant row.userId)
    row.expiresAt.timestamp) parts.mac && parts.nonce = row.nonce && parts.exp = row.expiresAt.timestamp

def verifyBearer (link : String) : Verb PortalPrincipal := do
  let secret ← ofExcept P.secret
  match parseCapability link with
  | none => refuse .credentialRefused
  | some parts => do
    match ← query (.bearerById parts.id) with
    | none => refuse .credentialRefused
    | some row =>
      if P.bearerAgrees secret parts row = false then refuse .credentialRefused
      else do
        let now ← utcNow
        if row.expiresAt < now then refuse .credentialRefused
        else if row.status ≠ .active then refuse .credentialRefused
        else do
          -- the principal's status, read again
          match ← query (.userStatus row.userId) with
          | none => refuse .credentialRefused
          | some status =>
            if status ≠ .active then refuse .credentialRefused
            else do
              let _ ← trySql (.touchLastUsed parts.id)
              pure ⟨row.userId, row.email, row.displayName⟩

def rotateBearer (link : String) (ttlHours : Int) : Verb String := do
  let principal ← P.verifyBearer link
  match parseCapability link with
  | none => refuse .credentialRefused
  | some parts => do
    let newId ← newUuid
    let newNonce ← mintNonce
    let now ← utcNow
    let newExp ← hoursAfter (max ttlHours 1) now
    match ← query (.rotateToken parts.id newId principal.userId newNonce newExp) with
    | false => refuse .credentialRefused
    | true => do
      audit "bearer_rotated" (some principal.userId) none (some parts.id) "recipient"
        (.object [("successor", .str newId.display), ("expires_at", .str newExp.toRfc3339)])
      ofExcept (P.bearerLink newId principal.userId newNonce newExp)

end Portal

def revokeBearer (tokenId : Uuid) (reason actor : String) : Verb Unit := do
  match ← query (.revokeToken tokenId reason) with
  | some user =>
    audit "bearer_revoked" (some user) none (some tokenId) actor (.object [("reason", .str reason)])
  | none => refuse (.notFound ("live bearer " ++ tokenId.display))

def revokeAllBearers (user : Uuid) (reason actor : String) : Verb Nat := do
  let n ← query (.revokeUserTokens user reason)
  if 0 < n then do
    audit "bearer_revoked" (some user) none none actor
      (.object [("reason", .str reason), ("revoked_count", .num n)])
    pure n
  else pure n

end BackbonePortal
