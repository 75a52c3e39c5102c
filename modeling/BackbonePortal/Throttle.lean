import BackbonePortal.Statements

/-!
# Errors and the attempt book

The module's typed errors with their HTTP mapping, and the in-memory throttle:
failures by key, the escalating lockout and the minimum spacing.
-/

namespace BackbonePortal

/-! ## Errors -/

inductive PortalError where
  | db (e : SqlError)
  | internal (text : String)
  | bearerSecretNotConfigured
  | recipientSecretNotConfigured
  | credentialRefused
  | invalidCredentials
  | rateLimited (retryAfterSeconds : Int)
  | signupClosed
  | credentialPortNotComposed
  | invalidInput (text : String)
  | notFound (text : String)
deriving DecidableEq, Repr

def PortalError.httpStatus : PortalError → Nat
  | .db _ | .internal _ => 500
  | .bearerSecretNotConfigured | .recipientSecretNotConfigured => 500
  | .credentialRefused | .invalidCredentials => 401
  | .rateLimited _ => 429
  | .signupClosed => 403
  | .credentialPortNotComposed => 503
  | .invalidInput _ => 400
  | .notFound _ => 404

def PortalError.code : PortalError → String
  | .db _ => "portal_internal_error"
  | .internal _ => "portal_internal_error"
  | .bearerSecretNotConfigured => "portal_internal_error"
  | .recipientSecretNotConfigured => "portal_internal_error"
  | .credentialRefused => "portal_credential_refused"
  | .invalidCredentials => "portal_invalid_credentials"
  | .rateLimited _ => "portal_rate_limited"
  | .signupClosed => "portal_signup_closed"
  | .credentialPortNotComposed => "portal_credential_port_not_composed"
  | .invalidInput _ => "portal_invalid_input"
  | .notFound _ => "portal_not_found"

/-- `to_string`, given the driver's text of a database error. -/
def PortalError.display (sqlErrorText : SqlError → String) : PortalError → String
  | .db e => "database error: " ++ sqlErrorText e
  | .internal text => "internal error: " ++ text
  | .bearerSecretNotConfigured => "portal bearer token secret is not configured"
  | .recipientSecretNotConfigured => "portal recipient token secret is not configured"
  | .credentialRefused => "credential refused"
  | .invalidCredentials => "invalid credentials"
  | .rateLimited n => "too many attempts; retry after " ++ toString n ++ "s"
  | .signupClosed => "signup is not open on this service"
  | .credentialPortNotComposed => "credential verifier not composed (host must register one)"
  | .invalidInput text => "invalid input: " ++ text
  | .notFound text => "not found: " ++ text

/-! ## The lockout curve -/

def attemptMaxFailures : Int := 5
def attemptLockBaseSeconds : Int := 30
def attemptLockCapSeconds : Int := 900
def attemptSpacing : Int := seconds 1

/-- The lockout in seconds once `failures ≥ attemptMaxFailures` have accumulated. -/
def lockSeconds (failures : Int) : Int :=
  min (attemptLockBaseSeconds * 2 ^ (min (failures - attemptMaxFailures).toNat 16)) attemptLockCapSeconds

def lockoutUntil (failures : Int) (now : Instant) : Option Instant :=
  if failures < attemptMaxFailures then none else some (now + seconds (lockSeconds failures))

/-! ## The book -/

/-- One key's failures; the count is an `i32`. -/
structure FailureEntry where
  failures : Int
  lockedUntil : Option Instant
  lastAttempt : Option Instant
deriving DecidableEq, Repr

structure AttemptBook where
  entries : String → Option FailureEntry

def AttemptBook.empty : AttemptBook := ⟨fun _ => none⟩

/-- `i32` addition as the release build does it. -/
def wrapI32 (n : Int) : Int := Int.bmod n (2 ^ 32)

/-- The refusal one entry calls for at `now`. -/
def FailureEntry.check (e : FailureEntry) (now : Instant) : Except PortalError Unit :=
  match e.lockedUntil.filter fun until_ => now < until_ with
  | some until_ => .error (.rateLimited (max (numSeconds (until_ - now)) 1))
  | none =>
    match e.lastAttempt.filter fun last => now - last < attemptSpacing with
    | some _ => .error (.rateLimited 1)
    | none => .ok ()

def AttemptBook.check (b : AttemptBook) (key : String) (now : Instant) : Except PortalError Unit :=
  match b.entries key with
  | some e => e.check now
  | none => .ok ()

def FailureEntry.register (e : FailureEntry) (now : Instant) : FailureEntry :=
  let failures := wrapI32 (e.failures + 1)
  { failures, lockedUntil := lockoutUntil failures now, lastAttempt := some now }

def AttemptBook.put (b : AttemptBook) (key : String) (e : Option FailureEntry) : AttemptBook :=
  ⟨fun k => if k = key then e else b.entries k⟩

def AttemptBook.registerFailure (b : AttemptBook) (key : String) (now : Instant) : AttemptBook :=
  b.put key (some (((b.entries key).getD ⟨0, none, none⟩).register now))

def AttemptBook.reset (b : AttemptBook) (key : String) : AttemptBook := b.put key none

/-- The recorded failure count. -/
def AttemptBook.failures (b : AttemptBook) (key : String) : Int := ((b.entries key).map (·.failures)).getD 0

@[simp] theorem AttemptBook.put_self (b : AttemptBook) (key : String) (e : Option FailureEntry) :
    (b.put key e).entries key = e := if_pos rfl

theorem AttemptBook.put_other (b : AttemptBook) {key k : String} (h : k ≠ key) (e : Option FailureEntry) :
    (b.put key e).entries k = b.entries k := if_neg h

theorem FailureEntry.check_error {e : FailureEntry} {now : Instant} {err : PortalError}
    (h : e.check now = .error err) : ∃ n, err = .rateLimited n := by
  unfold FailureEntry.check at h
  split at h
  · cases h; exact ⟨_, rfl⟩
  · split at h
    · cases h; exact ⟨_, rfl⟩
    · cases h

theorem AttemptBook.check_error {b : AttemptBook} {key : String} {now : Instant} {err : PortalError}
    (h : b.check key now = .error err) : ∃ n, err = .rateLimited n := by
  unfold AttemptBook.check at h
  split at h
  · exact FailureEntry.check_error h
  · cases h

end BackbonePortal
