import BackbonePortal.Credentials

/-!
# Invitations and the signup policy

The invitation verbs and the kill-switchable policy.
-/

namespace BackbonePortal

open Proc

namespace Portal

variable (P : Portal)

/-- The comparison form of an address. -/
def normalizeEmail (email : String) : String := P.toLowercase (trim email)

def mintInvite (recipientEmail : String) (grantedBy : Option Uuid) (ttlDays : Int) : Verb String :=
  let email := P.normalizeEmail recipientEmail
  if '@' ∉ email.toList ∨ 320 < byteLen email then
    refuse (.invalidInput "a valid recipient email is required")
  else do
    let id ← newUuid
    let nonce ← mintNonce
    let now ← utcNow
    let expires ← daysAfter (if 1 ≤ ttlDays then ttlDays else defaultInviteTtlDays) now
    query (.insertInvite id email nonce expires grantedBy)
    audit "invite_minted" none (some id) none ((grantedBy.map Uuid.display).getD "system")
      (.object [("recipient_email", .str email), ("expires_at", .str expires.toRfc3339)])
    ofExcept (P.inviteLink id nonce email expires.timestamp)

/-- The link and the presenting address agree with the stored invitation,
which is still pending. -/
def inviteAgrees (parts : ParsedCapability) (presenting : String) (row : InviteJoin) : Bool :=
  P.verifyInviteMac parts.id row.nonce row.recipientEmail row.expiresAt.timestamp parts.mac &&
    parts.nonce = row.nonce && parts.exp = row.expiresAt.timestamp && presenting = row.recipientEmail &&
    row.status = .pending

def redeem (link presentingEmail : String) : Verb (Uuid × String) :=
  let presenting := P.normalizeEmail presentingEmail
  match parseCapability link with
  | none => refuse .credentialRefused
  | some parts => do
    match ← query (.inviteById parts.id) with
    | none => refuse .credentialRefused
    | some row =>
      if P.inviteAgrees parts presenting row = false then refuse .credentialRefused
      else do
        let now ← utcNow
        if row.expiresAt < now then refuse .credentialRefused
        else do
          let user ← newUuid
          -- the one-shot fence: only a pending row flips
          match ← query (.redeemInvite parts.id user row.recipientEmail) with
          | false => refuse .credentialRefused
          | true => do
            audit "invite_redeemed" (some user) (some parts.id) none "recipient"
              (.object [("email", .str row.recipientEmail)])
            let bearer ← P.mintBearer user defaultBearerTtlHours
            pure (user, bearer)

def revokePendingForEmail (email reason actor : String) : Verb Nat := do
  let email := P.normalizeEmail email
  let n ← query (.revokePending email reason)
  if 0 < n then do
    audit "invite_revoked" none none none actor
      (.object [("reason", .str reason), ("email", .str email), ("revoked_count", .num n)])
    pure n
  else pure n

end Portal

def revokeInvite (inviteId : Uuid) (reason actor : String) : Verb Unit := do
  let n ← query (.revokeInvite inviteId reason)
  if n ≠ 1 then refuse (.notFound ("pending invite " ++ inviteId.display))
  else audit "invite_revoked" none (some inviteId) none actor (.object [("reason", .str reason)])

def sweepExpired : Verb Nat := query .sweepExpired

/-! ## The signup policy -/

/-- Fail-closed: an absent row, a read error and a disabled row read alike. -/
def signupOpen : Verb Bool := do
  match ← trySql .policyEnabled with
  | .ok enabled => pure enabled
  | .error _ => pure false

def setSignupPolicy (enabled : Bool) (note : Option String) (officer : Option Uuid) : Verb Unit := do
  let id ← newUuid
  query (.replacePolicy id enabled note officer)
  audit "policy_changed" none none none ((officer.map Uuid.display).getD "system")
    (.object [("enabled", .bool enabled), ("note", Json.option .str note)])

end BackbonePortal
