import BackbonePortal.Access

/-!
# The public routes

The four handlers that carry a credential, from the request to the response.
-/

namespace BackbonePortal

open Proc

/-- The header values the handlers read, where `to_str` gives one. -/
structure Headers where
  xForwardedFor : Option String := none

inductive ResponseBody where
  | json (j : Json)
  | text (s : String)

structure Response where
  status : Nat
  headers : List (String × String) := []
  body : ResponseBody

/-- Why axum's `Json` extractor turned a request away before its handler. -/
inductive JsonRejection where
  | dataError
  | syntaxError
  | missingContentType
  | bytes
deriving DecidableEq, Repr

def JsonRejection.status : JsonRejection → Nat
  | .dataError => 422
  | .syntaxError => 400
  | .missingContentType => 415
  | .bytes => 413

structure RedeemInviteRequest where
  link : String
  email : String

structure PasswordRequest where
  email : String
  password : String

structure RotateRequest where
  token : String

/-- A request body: what the extractor read, or its rejection and text. -/
abbrev Body (α : Type) := Except (JsonRejection × String) α

/-- A request to one of the four routes. -/
inductive RouteRequest where
  | redeemInvite (headers : Headers) (body : Body RedeemInviteRequest)
  | login (headers : Headers) (body : Body PasswordRequest)
  | signup (headers : Headers) (body : Body PasswordRequest)
  | rotate (headers : Headers) (body : Body RotateRequest)

def extract (body : Body α) (handler : α → Verb Response) : Verb Response :=
  match body with
  | .ok a => handler a
  | .error (r, text) => pure { status := r.status, body := .text text }

/-- The first hop of `X-Forwarded-For`. -/
def visitorIp (headers : Headers) : String :=
  let hop := headers.xForwardedFor.bind fun v => ((splitAt ',' v).head?.map trim).filter (· ≠ "")
  hop.getD "unknown"

/-- The uniform refusal body. -/
def refused : Response where
  status := 401
  body := .json (.object [("error", .str "credential refused"), ("code", .str "portal_credential_refused")])

def bearerResponse (status : Nat) (bearer : String) : Response where
  status
  body := .json (.object [("token", .str bearer), ("token_type", .str "Bearer")])

def rateLimitedResponse (n : Int) : Response where
  status := 429
  headers := [("retry-after", toString n), ("content-type", "application/json")]
  body := .json (.object [("error", .str "rate limited"), ("code", .str "portal_rate_limited"),
    ("retry_after_seconds", .num n)])

/-- A verb's value or error answered by a handler; a panic stays a panic. -/
def answered (p : Verb α) (ok : α → Response) (err : PortalError → Verb Response) : Verb Response := do
  match ← p.attempt with
  | .ok a => pure (ok a)
  | .error (.err e) => err e
  | .error h => .fail h

namespace Portal

variable (P : Portal)

def portalErrorResponse : PortalError → Response
  | .credentialRefused | .invalidCredentials => refused
  | .rateLimited n => rateLimitedResponse n
  | e => {
      status := e.httpStatus
      body := .json (.object [("error", .str (e.display P.sqlErrorText)), ("code", .str e.code)]) }

def redeemInviteRoute (headers : Headers) (body : Body RedeemInviteRequest) : Verb Response :=
  extract body fun body =>
    answered (P.redeem body.link body.email) (fun r => bearerResponse 200 r.2) fun
      | .credentialRefused => do
        registerNow ("portal|id:" ++ P.toLowercase (trim body.email))
        registerNow (ipKey (visitorIp headers))
        pure refused
      | other => pure (P.portalErrorResponse other)

def loginRoute (headers : Headers) (body : Body PasswordRequest) : Verb Response :=
  extract body fun body =>
    answered (P.login body.email body.password (visitorIp headers)) (fun r => bearerResponse 200 r.2)
      fun e => pure (P.portalErrorResponse e)

def signupRoute (headers : Headers) (body : Body PasswordRequest) : Verb Response :=
  extract body fun body =>
    answered (P.signup body.email body.password (visitorIp headers)) (fun r => bearerResponse 201 r.2)
      fun e => pure (P.portalErrorResponse e)

def rotateRoute (headers : Headers) (body : Body RotateRequest) : Verb Response :=
  extract body fun body => do
    let key := ipKey (visitorIp headers)
    match ← (checkNow key).attempt with
    | .error (.err e) => pure (P.portalErrorResponse e)
    | .error h => .fail h
    | .ok () =>
      answered (P.rotateBearer body.token defaultBearerTtlHours) (bearerResponse 200) fun
        | .credentialRefused => do
          registerNow key
          pure refused
        | other => pure (P.portalErrorResponse other)

def route : RouteRequest → Verb Response
  | .redeemInvite headers body => P.redeemInviteRoute headers body
  | .login headers body => P.loginRoute headers body
  | .signup headers body => P.signupRoute headers body
  | .rotate headers body => P.rotateRoute headers body

end Portal

end BackbonePortal
