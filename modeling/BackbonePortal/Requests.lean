import BackbonePortal.Lifecycle
import BackbonePortal.Rendering
import BackbonePortal.Routes
import BackbonePortal.Surface

/-!
# Requests

Every call the module serves, so that a pool can hold any mix of them.
-/

namespace BackbonePortal

open Proc

inductive Request where
  | mintBearer (user : Uuid) (ttlHours : Int)
  | verifyBearer (link : String)
  | rotateBearer (link : String) (ttlHours : Int)
  | revokeBearer (token : Uuid) (reason actor : String)
  | revokeAllBearers (user : Uuid) (reason actor : String)
  | mintInvite (email : String) (grantedBy : Option Uuid) (ttlDays : Int)
  | redeem (link email : String)
  | revokeInvite (invite : Uuid) (reason actor : String)
  | revokePendingForEmail (email reason actor : String)
  | sweepExpired
  | setSignupPolicy (enabled : Bool) (note : Option String) (officer : Option Uuid)
  | login (email presented ip : String)
  | signup (email presented ip : String)
  | revokeAccess (user : Uuid) (reason actor : String)
  | myDetails (principal : PortalPrincipal)
  | updateMyDetails (principal : PortalPrincipal) (patch : PortalDetailPatch)
  | myAccessHistory (principal : PortalPrincipal) (limit : Int)
  | handle (env : Envelope)
  | route (request : RouteRequest)

/-- What a call returns when it succeeds. -/
inductive Reply where
  | unit
  | count (n : Nat)
  | flag (b : Bool)
  | link (s : String)
  | admitted (user : Uuid) (bearer : String)
  | principal (p : PortalPrincipal)
  | account (v : PortalAccountView)
  | history (events : List PortalAccessEvent)
  | response (r : Response)

def reply (p : Verb α) (f : α → Reply) : Verb Reply := p.bind fun a => .ret (f a)

def Portal.serve (P : Portal) : Request → Verb Reply
  | .mintBearer user ttl => reply (P.mintBearer user ttl) .link
  | .verifyBearer link => reply (P.verifyBearer link) .principal
  | .rotateBearer link ttl => reply (P.rotateBearer link ttl) .link
  | .revokeBearer token reason actor => reply (BackbonePortal.revokeBearer token reason actor) fun _ => .unit
  | .revokeAllBearers user reason actor => reply (BackbonePortal.revokeAllBearers user reason actor) .count
  | .mintInvite email grantedBy ttl => reply (P.mintInvite email grantedBy ttl) .link
  | .redeem link email => reply (P.redeem link email) fun r => .admitted r.1 r.2
  | .revokeInvite invite reason actor => reply (BackbonePortal.revokeInvite invite reason actor) fun _ => .unit
  | .revokePendingForEmail email reason actor => reply (P.revokePendingForEmail email reason actor) .count
  | .sweepExpired => reply BackbonePortal.sweepExpired .count
  | .setSignupPolicy enabled note officer =>
    reply (BackbonePortal.setSignupPolicy enabled note officer) fun _ => .unit
  | .login email presented ip => reply (P.login email presented ip) fun r => .admitted r.1 r.2
  | .signup email presented ip => reply (P.signup email presented ip) fun r => .admitted r.1 r.2
  | .revokeAccess user reason actor => reply (BackbonePortal.revokeAccess user reason actor) .flag
  | .myDetails principal => reply (BackbonePortal.myDetails principal) .account
  | .updateMyDetails principal patch => reply (BackbonePortal.updateMyDetails principal patch) .account
  | .myAccessHistory principal limit => reply (BackbonePortal.myAccessHistory principal limit) .history
  | .handle env => reply (P.handle env) fun _ => .unit
  | .route request => reply (P.route request) .response

theorem serve_redeem (P : Portal) (link email : String) :
    P.serve (.redeem link email) = reply (P.redeem link email) fun r => .admitted r.1 r.2 := rfl

theorem serve_rotateBearer (P : Portal) (link : String) (ttl : Int) :
    P.serve (.rotateBearer link ttl) = reply (P.rotateBearer link ttl) .link := rfl

/-! ## The probe portal -/

namespace Probe

def uuid (d : Nat) : Uuid := ⟨BitVec.ofNat 128 (0x11111111111111111111111111111111 * d)⟩

def nonceBits : BitVec 128 := 0x0123456789abcdef0123456789abcdef

def nonce : String := nonceOf nonceBits

def bearerSecret : List UInt8 := bytes "portal-probe-bearer-secret"

def recipientSecret : List UInt8 := bytes "portal-probe-recipient-secret"

def inviteInput : String :=
  "portal-invite|11111111-1111-1111-1111-111111111111.0123456789abcdef0123456789abcdef" ++
    ".portal_invite:first@example.com.1701209600"

def inviteMac : String := "854a0278ec8bdfd3d33af69b387048bb88a9aa549b505db7894c6f2a14651611"

def bearerInput : String :=
  "portal-bearer|33333333-3333-3333-3333-333333333333.0123456789abcdef0123456789abcdef" ++
    ".portal_bearer:22222222-2222-2222-2222-222222222222.1700086400"

def bearerMac : String := "97ff5f8a4b7569d92fb54add6ee08882a356b8f4b3c51ecc4e08097d19c10a73"

/-- The probes' portal, with HMAC-SHA256 at the two inputs they use. -/
def portal : Portal where
  hmacSha256 key msg :=
    if key = bearerSecret ∧ msg = inviteInput then (hexDecode inviteMac).getD []
    else if key = bearerSecret ∧ msg = bearerInput then (hexDecode bearerMac).getD []
    else []
  toLowercase s := String.ofList (s.toList.map Char.toLower)
  sqlErrorText
    | .fault text => text
    | .violates c => "violates constraint " ++ c
    | .rowNotFound => "no rows returned by a query that expected to return at least one row"
  payloadErrorText _ := "missing field"
  bearerSecret := bearerSecret
  recipientSecret := recipientSecret

def now : Instant := seconds 1700000000

def email : String := "first@example.com"

def user : PortalUser := { id := uuid 2, email, status := .active, metadata := .inserted now }

def token : PortalToken := .fresh (uuid 3) (uuid 2) nonce (seconds 1700086400) now

def invite : PortalInvite := .fresh (uuid 1) email nonce (seconds 1701209600) none now

def inviteLink : String := renderLink (uuid 1) nonce 1701209600 inviteMac

def bearerLink : String := renderLink (uuid 3) nonce 1700086400 bearerMac

theorem parse_inviteLink : parseCapability inviteLink = some ⟨uuid 1, nonce, 1701209600, inviteMac⟩ := by
  have hmac : byteLen inviteMac = 64 ∧ allHex inviteMac = true := by decide +kernel
  exact parseCapability_rendered (uuid 1) (nonceOf_ne_empty _)
    (allHex_of_digits fun _ => mem_nonceOf) (by decide) (by decide)
    hmac.1 hmac.2

theorem parse_bearerLink : parseCapability bearerLink = some ⟨uuid 3, nonce, 1700086400, bearerMac⟩ := by
  have hmac : byteLen bearerMac = 64 ∧ allHex bearerMac = true := by decide +kernel
  exact parseCapability_rendered (uuid 3) (nonceOf_ne_empty _)
    (allHex_of_digits fun _ => mem_nonceOf) (by decide) (by decide)
    hmac.1 hmac.2

def enrolled : Db := { Db.empty with users := .single user (by decide +kernel) }

def admitted : Db := { enrolled with tokens := .single token (by decide) }

theorem invite_unbroken : inviteSchema.broken invite = none := by decide

def invited : Db := { Db.empty with invites := .single invite invite_unbroken }

def world (db : Db) : World := { db, book := .empty, clock := now }

def env : Env := { now, uuid := uuid 2, nonce := nonceBits, verdict := some (.ok true) }

end Probe

end BackbonePortal
