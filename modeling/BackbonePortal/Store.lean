import BackbonePortal.Table
import BackbonePortal.Values

/-!
# The portal tables

The rows of the `portal` schema with the keys, partial indexes and CHECK
constraints its migrations declare, and the shared audit trail.
-/

namespace BackbonePortal

open Tables

/-- The `metadata` column: the audit triggers keep the first two stamps. -/
structure Metadata where
  createdAt : Option Instant := none
  updatedAt : Option Instant := none
  deletedAt : Option Instant := none
  createdBy : Option String := none
  updatedBy : Option String := none
  deletedBy : Option String := none
deriving DecidableEq, Repr

/-- The column default after the INSERT trigger. -/
def Metadata.inserted (now : Instant) : Metadata := { createdAt := some now, updatedAt := some now }

/-- The UPDATE trigger. -/
def Metadata.touched (now : Instant) (m : Metadata) : Metadata := { m with updatedAt := some now }

def Metadata.live (m : Metadata) : Bool := m.deletedAt.isNone

@[simp] theorem Metadata.touched_deletedAt (now : Instant) (m : Metadata) :
    (m.touched now).deletedAt = m.deletedAt := rfl

@[simp] theorem Metadata.touched_live (now : Instant) (m : Metadata) : (m.touched now).live = m.live := rfl

@[simp] theorem Metadata.inserted_live (now : Instant) : (Metadata.inserted now).live = true := rfl

/-- A CHECK over a nullable column holds of NULL. -/
def optionally (p : String → Bool) (o : Option String) : Bool := o.all p

/-! ## Principals -/

inductive PortalUserStatus where
  | invited
  | active
  | revoked
  | archived
deriving DecidableEq, Repr

def PortalUserStatus.text : PortalUserStatus → String
  | .invited => "invited"
  | .active => "active"
  | .revoked => "revoked"
  | .archived => "archived"

/-- The self-service columns. -/
structure Details where
  displayName : Option String := none
  phone : Option String := none
  street : Option String := none
  street2 : Option String := none
  city : Option String := none
  stateId : Option String := none
  countryId : Option String := none
  zip : Option String := none
  vat : Option String := none
  companyName : Option String := none
deriving DecidableEq, Repr

structure PortalUser where
  id : Uuid
  email : String
  status : PortalUserStatus
  details : Details := {}
  sapiensUserId : Option Uuid := none
  revokedAt : Option Instant := none
  revocationReason : Option String := none
  archivedAt : Option Instant := none
  lastLoginAt : Option Instant := none
  metadata : Metadata := {}
deriving DecidableEq, Repr

def PortalUser.live (u : PortalUser) : Bool := u.metadata.live

/-- `portal.portal_users`: one live principal an address. -/
def userSchema : Schema PortalUser Uuid String where
  pkey := "portal_users_pkey"
  key := PortalUser.id
  index := "idx_portal_users_email_live"
  idx u := if u.live then some u.email else none
  checks := [
    ("ck_portal_users_city_max_length__max_length", fun u => optionally (withinLength 80) u.details.city),
    ("ck_portal_users_company_name_max_length__max_length",
      fun u => optionally (withinLength 120) u.details.companyName),
    ("ck_portal_users_country_id_max_length__max_length",
      fun u => optionally (withinLength 8) u.details.countryId),
    ("ck_portal_users_display_name_max_length__max_length",
      fun u => optionally (withinLength 120) u.details.displayName),
    ("ck_portal_users_email_max_length__max_length", fun u => withinLength 320 u.email),
    ("ck_portal_users_email_required__required", fun u => notBlank u.email),
    ("ck_portal_users_phone_max_length__max_length", fun u => optionally (withinLength 40) u.details.phone),
    ("ck_portal_users_revocation_reason_max_length__max_length",
      fun u => optionally (withinLength 120) u.revocationReason),
    ("ck_portal_users_state_id_max_length__max_length", fun u =>
      optionally (withinLength 80) u.details.stateId),
    ("ck_portal_users_street2_max_length__max_length", fun u =>
      optionally (withinLength 160) u.details.street2),
    ("ck_portal_users_street_max_length__max_length", fun u => optionally (withinLength 160) u.details.street),
    ("ck_portal_users_vat_max_length__max_length", fun u => optionally (withinLength 40) u.details.vat),
    ("ck_portal_users_zip_max_length__max_length", fun u => optionally (withinLength 24) u.details.zip)]

/-! ## Bearers -/

inductive PortalTokenStatus where
  | active
  | rotated
  | revoked
deriving DecidableEq, Repr

structure PortalToken where
  id : Uuid
  userId : Uuid
  tokenNonce : String
  tokenExpiresAt : Instant
  status : PortalTokenStatus
  rotatedAt : Option Instant := none
  rotatedTo : Option Uuid := none
  revokedAt : Option Instant := none
  revocationReason : Option String := none
  lastUsedAt : Option Instant := none
  metadata : Metadata := {}
deriving DecidableEq, Repr

def PortalToken.live (t : PortalToken) : Bool := t.metadata.live

/-- `portal.portal_tokens`; the foreign key is checked where a row is inserted. -/
def tokenSchema : Schema PortalToken Uuid String where
  pkey := "portal_tokens_pkey"
  key := PortalToken.id
  index := "idx_portal_tokens_token_nonce"
  idx t := some t.tokenNonce
  checks := [
    ("ck_portal_tokens_revocation_reason_max_length__max_length",
      fun t => optionally (withinLength 120) t.revocationReason),
    ("ck_portal_tokens_token_nonce_max_length__max_length", fun t => withinLength 64 t.tokenNonce),
    ("ck_portal_tokens_token_nonce_required__required", fun t => notBlank t.tokenNonce)]

/-! ## Invitations -/

inductive PortalInviteStatus where
  | pending
  | redeemed
  | revoked
  | expired
deriving DecidableEq, Repr

structure PortalInvite where
  id : Uuid
  recipientEmail : String
  tokenNonce : String
  tokenExpiresAt : Instant
  status : PortalInviteStatus
  grantedBy : Option Uuid := none
  redeemedBy : Option Uuid := none
  redeemedAt : Option Instant := none
  revokedAt : Option Instant := none
  revocationReason : Option String := none
  metadata : Metadata := {}
deriving DecidableEq, Repr

def PortalInvite.live (v : PortalInvite) : Bool := v.metadata.live

/-- `portal.portal_invites`. -/
def inviteSchema : Schema PortalInvite Uuid String where
  pkey := "portal_invites_pkey"
  key := PortalInvite.id
  index := "idx_portal_invites_token_nonce"
  idx v := some v.tokenNonce
  checks := [
    ("ck_portal_invites_recipient_email_max_length__max_length", fun v => withinLength 320 v.recipientEmail),
    ("ck_portal_invites_recipient_email_required__required", fun v => notBlank v.recipientEmail),
    ("ck_portal_invites_revocation_reason_max_length__max_length",
      fun v => optionally (withinLength 120) v.revocationReason),
    ("ck_portal_invites_token_nonce_max_length__max_length", fun v => withinLength 64 v.tokenNonce),
    ("ck_portal_invites_token_nonce_required__required", fun v => notBlank v.tokenNonce)]

/-! ## The signup policy -/

structure PortalSignupPolicy where
  id : Uuid
  enabled : Bool
  note : Option String := none
  updatedBy : Option Uuid := none
  metadata : Metadata := {}
deriving DecidableEq, Repr

def PortalSignupPolicy.live (p : PortalSignupPolicy) : Bool := p.metadata.live

/-- `portal.portal_signup_policies`: at most one row ever. -/
def policySchema : Schema PortalSignupPolicy Uuid Unit where
  pkey := "portal_signup_policies_pkey"
  key := PortalSignupPolicy.id
  index := "idx_portal_signup_policies_singleton"
  idx _ := some ()
  checks := [("ck_portal_signup_policies_note_max_length__max_length",
    fun p => optionally (withinLength 200) p.note)]

/-! ## The audit trail -/

inductive AuditEventType where
  | dataChange
deriving DecidableEq, Repr

inductive AuditStatus where
  | success
deriving DecidableEq, Repr

/-- What `record_audit` hands to the shared trail. -/
structure AuditEvent where
  eventType : AuditEventType
  action : String
  subjectType : Option String
  subjectId : Option String
  changed : Option Json
  reason : Option String
  status : AuditStatus
  actor : Option String

/-- A row of `auditlog.audit_trails`. -/
structure AuditTrail where
  event : AuditEvent
  occurredAt : Instant

/-! ## The database -/

structure Db where
  users : Table userSchema
  tokens : Table tokenSchema
  invites : Table inviteSchema
  policies : Table policySchema
  trail : List AuditTrail

def Db.empty : Db := ⟨.empty, .empty, .empty, .empty, []⟩

/-- The portal tables, without the trail. -/
def Db.tables (db : Db) : Table userSchema × Table tokenSchema × Table inviteSchema × Table policySchema :=
  (db.users, db.tokens, db.invites, db.policies)

/-- The live principal of an address. -/
def Db.principal (db : Db) (email : String) : Option PortalUser :=
  db.users.rows.find? fun u => u.live && u.email = email

theorem Db.principal_eq_some {db : Db} {email : String} {u : PortalUser} :
    db.principal email = some u ↔ u ∈ db.users.rows ∧ u.live = true ∧ u.email = email := by
  constructor
  · intro h
    have hp := List.find?_some h
    simp only [Bool.and_eq_true, decide_eq_true_eq] at hp
    exact ⟨List.mem_of_find?_eq_some h, hp⟩
  · rintro ⟨hu, hl, he⟩
    cases h : db.principal email with
    | none =>
      have := List.find?_eq_none.mp h u hu
      simp [hl, he] at this
    | some v =>
      have hp := List.find?_some h
      simp only [Bool.and_eq_true, decide_eq_true_eq] at hp
      have hi : ∀ x : PortalUser, x.live = true → x.email = email → userSchema.idx x = some email := by
        intro x hx hxe
        simp [userSchema, hx, hxe]
      rw [db.users.idx_inj (List.mem_of_find?_eq_some h) hu (hi v hp.1 hp.2) (hi u hl he)]

theorem Db.principal_eq_none {db : Db} {email : String} :
    db.principal email = none ↔ ∀ u ∈ db.users.rows, u.live = true → u.email ≠ email := by
  simp only [Db.principal, List.find?_eq_none, Bool.and_eq_true, decide_eq_true_eq, not_and, ne_eq]

end BackbonePortal
