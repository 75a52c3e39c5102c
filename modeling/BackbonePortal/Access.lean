import BackbonePortal.Invites

/-!
# Access

Throttled login, policy-gated signup, and the revocation of a principal.
-/

namespace BackbonePortal

open Proc

def ipKey (ip : String) : String := "portal|ip:" ++ ip

/-- `register_failure` at a fresh reading of the clock. -/
def registerNow (key : String) : Verb Unit := do
  let now ← utcNow
  registerFailure key now

/-- `check` at a fresh reading of the clock. -/
def checkNow (key : String) : Verb Unit := do
  let now ← utcNow
  checkKey key now

namespace Portal

variable (P : Portal)

def identityKey (email : String) : String := "portal|id:" ++ P.normalizeEmail email

/-- Reset the counters, touch the login stamp, mint. -/
def succeedLogin (user : Uuid) (idKey ipKey event : String) : Verb (Uuid × String) := do
  resetKey idKey
  resetKey ipKey
  let _ ← trySql (.touchLastLogin user)
  let bearer ← P.mintBearer user defaultBearerTtlHours
  audit event (some user) none none "recipient" (.object [])
  pure (user, bearer)

/-- Both counters bite, the refusal is audited. -/
def refuseLogin (user : Option Uuid) (idKey ipKey : String) (detail : Json) : Verb α := do
  registerNow idKey
  registerNow ipKey
  audit "login_refused" user none none "anonymous" detail
  refuse .invalidCredentials

def verifyAndMint (email presented ip event : String) : Verb (Uuid × String) := do
  let idKey := P.identityKey email
  let ipKey := ipKey ip
  let now ← utcNow
  checkKey idKey now
  checkKey ipKey now
  match ← query (.liveUserByEmail email) with
  | none =>
    refuseLogin none idKey ipKey
      (.object [("email_domain", Json.option .str (splitAt '@' email)[1]?)])
  | some (user, status) =>
    if status ≠ .active then refuseLogin (some user) idKey ipKey (.object [])
    else do
      match ← checkCredential email presented with
      | some (.ok true) => P.succeedLogin user idKey ipKey event
      | some (.ok false) => refuseLogin (some user) idKey ipKey (.object [])
      | some (.error e) =>
        refuse (.internal ("verifier: credential verifier internal failure: " ++ e))
      | none => do
        audit "credential_port_not_composed" (some user) none none "system"
          (.object [("verb", .str "login")])
        refuse .credentialPortNotComposed

def login (email presented ip : String) : Verb (Uuid × String) :=
  let email := P.normalizeEmail email
  if email = "" then refuse .invalidCredentials
  else P.verifyAndMint email presented ip "login_succeeded"

/-- The principal a signup created, or the winner of the race for the address. -/
def createdPrincipal (email : String) (inserted : Option Uuid) : Verb Uuid :=
  match inserted with
  | some id => pure id
  | none => do
    match ← query (.liveUserByEmail email) with
    | some (id, _) => pure id
    | none => refuse (.internal "signup race: principal missing after conflict")

/-- The insert, its audit row and the first bearer. -/
def createPrincipal (email : String) : Verb (Uuid × String) := do
  let id ← newUuid
  let inserted ← query (.insertSignup id email)
  let user ← createdPrincipal email inserted
  audit "signup_created" (some user) none none "recipient" (.object [])
  let bearer ← P.mintBearer user defaultBearerTtlHours
  pure (user, bearer)

/-- Signup of an address with no live principal. -/
def signupFresh (email presented ip : String) : Verb (Uuid × String) := do
  let idKey := P.identityKey email
  let ipKey := ipKey ip
  checkNow idKey
  checkNow ipKey
  match ← checkCredential email presented with
  | some (.ok true) => P.createPrincipal email
  | some (.ok false) => do
    registerNow idKey
    registerNow ipKey
    refuse .invalidCredentials
  | some (.error e) => refuse (.internal ("verifier: credential verifier internal failure: " ++ e))
  | none => do
    audit "credential_port_not_composed" none none none "system" (.object [("verb", .str "signup")])
    refuse .credentialPortNotComposed

def signup (email presented ip : String) : Verb (Uuid × String) :=
  let email := P.normalizeEmail email
  if email = "" ∨ '@' ∉ email.toList then refuse (.invalidInput "a valid email is required")
  else do
    match ← signupOpen with
    | false => do
      audit "signup_refused_policy_closed" none none none "anonymous" (.object [])
      refuse .signupClosed
    | true => do
      match ← query (.liveUserByEmail email) with
      | some (_, status) =>
        if status ≠ .active then refuse .invalidCredentials
        else P.verifyAndMint email presented ip "login_succeeded"
      | none => P.signupFresh email presented ip

end Portal

/-- Flip the status, then sweep the bearers and the pending invitations. -/
def revokeAccess (user : Uuid) (reason actor : String) : Verb Bool := do
  match ← query (.revokeUser user reason) with
  | none => pure false
  | some email => do
    let _ ← revokeAllBearers user reason actor
    let _ ← query (.revokePending email reason)
    pure true

end BackbonePortal
