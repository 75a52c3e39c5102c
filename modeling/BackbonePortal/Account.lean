import BackbonePortal.SurfaceGate

/-!
# The account routes

The three handlers behind a bearer, from the `Authorization` header and the
JSON body to the response.
-/

namespace BackbonePortal

open Proc

/-- The value of the header behind `Bearer `, trimmed. -/
def presentedBearer (authorization : Option String) : Option String :=
  (authorization.bind fun v =>
    if "Bearer ".toList.isPrefixOf v.toList then some (trim (String.ofList (v.toList.drop 7))) else none).filter
      (· ≠ "")

/-! ## The JSON edge -/

/-- `serde` for an `Option<String>`; the outer option is the reader's failure. -/
def Json.optionalText : Json → Option (Option String)
  | .null => some none
  | .str s => some (some s)
  | _ => none

/-- An arm of the patch; a missing key reads as null. -/
def Json.arm (fields : List (String × Json)) (c : DetailColumn) : Option (Option String) :=
  match fields.find? fun f => f.1 = c.name with
  | some (_, v) => v.optionalText
  | none => some none

/-- `serde_json::from_value::<PortalDetailPatch>`: other keys are dropped, and
a derived struct also reads from a sequence. -/
def PortalDetailPatch.read : Json → Option PortalDetailPatch
  | .obj fields => do
    pure {
      displayName := ← Json.arm fields .displayName
      phone := ← Json.arm fields .phone
      street := ← Json.arm fields .street
      street2 := ← Json.arm fields .street2
      city := ← Json.arm fields .city
      stateId := ← Json.arm fields .stateId
      countryId := ← Json.arm fields .countryId
      zip := ← Json.arm fields .zip
      vat := ← Json.arm fields .vat
      companyName := ← Json.arm fields .companyName }
  | .arr [displayName, phone, street, street2, city, stateId, countryId, zip, vat, companyName] => do
    pure {
      displayName := ← displayName.optionalText
      phone := ← phone.optionalText
      street := ← street.optionalText
      street2 := ← street2.optionalText
      city := ← city.optionalText
      stateId := ← stateId.optionalText
      countryId := ← countryId.optionalText
      zip := ← zip.optionalText
      vat := ← vat.optionalText
      companyName := ← companyName.optionalText }
  | _ => none

/-- `serde` for a `DateTime<Utc>`, which writes `Z` for the offset. -/
def Instant.serialized (t : Instant) : String :=
  String.ofList (t.toRfc3339.toList.take (t.toRfc3339.length - 6) ++ ['Z'])

def PortalAccountView.toJson (v : PortalAccountView) : Json :=
  .object [("user_id", .str v.userId.display), ("email", .str v.email),
    ("display_name", .option .str v.details.displayName), ("status", .str v.status),
    ("phone", .option .str v.details.phone), ("street", .option .str v.details.street),
    ("street2", .option .str v.details.street2), ("city", .option .str v.details.city),
    ("state_id", .option .str v.details.stateId), ("country_id", .option .str v.details.countryId),
    ("zip", .option .str v.details.zip), ("vat", .option .str v.details.vat),
    ("company_name", .option .str v.details.companyName),
    ("last_login_at", .option (fun t => .str t.serialized) v.lastLoginAt),
    ("updated_at", .option (fun t => .str t.serialized) v.updatedAt)]

def PortalAccessEvent.toJson (e : PortalAccessEvent) : Json :=
  .object [("event", .str e.event), ("occurred_at", .str e.occurredAt.toRfc3339),
    ("actor", .option .str e.actor)]

def jsonResponse (j : Json) : Response := { status := 200, body := .json j }

/-! ## The handlers -/

namespace Portal

variable (P : Portal)

/-- The principal behind the header, or the refusal. -/
def bearerPrincipal (authorization : Option String) : Verb (Except Response PortalPrincipal) :=
  match presentedBearer authorization with
  | none => pure (.error refused)
  | some presented => do
    match ← (P.verifyBearer presented).attempt with
    | .ok principal => pure (.ok principal)
    | .error (.err .credentialRefused) => pure (.error refused)
    | .error (.err other) => pure (.error (P.portalErrorResponse other))
    | .error h => .fail h

/-- `let Ok(principal) = bearer_principal(…) else { return refused() }`. -/
def authenticated (authorization : Option String) (handler : PortalPrincipal → Verb Response) :
    Verb Response := do
  match ← P.bearerPrincipal authorization with
  | .ok principal => handler principal
  | .error _ => pure refused

def me (authorization : Option String) : Verb Response :=
  P.authenticated authorization fun principal =>
    answered (myDetails principal) (fun v => jsonResponse v.toJson) fun e => pure (P.portalErrorResponse e)

def updateMe (authorization : Option String) (body : Body Json) : Verb Response :=
  extract body fun body =>
    P.authenticated authorization fun principal =>
      match PortalDetailPatch.read body with
      | none =>
        pure (P.portalErrorResponse (.invalidInput "the patch body did not match the writable detail fields"))
      | some patch =>
        answered (updateMyDetails principal patch) (fun v => jsonResponse v.toJson) fun e =>
          pure (P.portalErrorResponse e)

def accessHistory (authorization : Option String) : Verb Response :=
  P.authenticated authorization fun principal =>
    answered (myAccessHistory principal 50)
      (fun events => jsonResponse (.object [("events", .arr (events.map PortalAccessEvent.toJson))])) fun e =>
        pure (P.portalErrorResponse e)

end Portal

/-- A call a customer can make: through the surface, or over one of the routes. -/
inductive CustomerCall where
  | surface (principal : PortalPrincipal) (call : SurfaceCall)
  | me (authorization : Option String)
  | updateMe (authorization : Option String) (body : Body Json)
  | accessHistory (authorization : Option String)

namespace CustomerCall

def verb (P : Portal) : CustomerCall → Verb Reply
  | .surface principal call => call.verb principal
  | .me authorization => reply (P.me authorization) .response
  | .updateMe authorization body => reply (P.updateMe authorization body) .response
  | .accessHistory authorization => reply (P.accessHistory authorization) .response

/-- The bearer row the request's credential names. -/
def credential : CustomerCall → Option Uuid
  | .surface _ _ => none
  | .me authorization | .updateMe authorization _ | .accessHistory authorization =>
    ((presentedBearer authorization).bind parseCapability).map ParsedCapability.id

/-- The principal the call states itself. -/
def principal : CustomerCall → Option Uuid
  | .surface principal _ => some principal.userId
  | _ => none

/-- Nobody but `user` stands behind the call; `owner` maps the bearers to their principals. -/
def MadeAs (user : Uuid) (owner : Uuid → Option Uuid) (call : CustomerCall) : Prop :=
  (∀ id ∈ call.principal, id = user) ∧ ∀ token ∈ call.credential, ∀ id ∈ owner token, id = user

/-- The calls one after another, each in an environment of its own. -/
def runAll (P : Portal) : List (CustomerCall × (Nat → Env)) → World → List (Except Halt Reply) × World
  | [], w => ([], w)
  | (call, i) :: calls, w =>
    let first := (call.verb P).run portalMachine i w
    let rest := runAll P calls first.2
    (first.1 :: rest.1, rest.2)

end CustomerCall

end BackbonePortal
