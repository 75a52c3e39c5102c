import BackbonePortal.Access

/-!
# The sapiens lifecycle subscription

The handler of the four `sapiens.user.*` events.
-/

namespace BackbonePortal

open Proc

/-- The fields of `IntegrationEventEnvelope` the handler reads. -/
structure Envelope where
  id : String
  eventType : String
  payload : Json

structure UserCreatedPayload where
  userId : String
  email : String
deriving DecidableEq, Repr

structure UserGonePayload where
  userId : String
deriving DecidableEq, Repr

/-- A string field of an object. -/
def Json.text (fields : List (String × Json)) (key : String) : Option String :=
  match fields.find? fun f => f.1 = key with
  | some (_, .str s) => some s
  | _ => none

/-- `serde_json::from_value`; a derived struct also reads from a sequence. -/
def UserCreatedPayload.read : Json → Option UserCreatedPayload
  | .obj fields => do pure ⟨← Json.text fields "user_id", ← Json.text fields "email"⟩
  | .arr [.str user, .str email] => some ⟨user, email⟩
  | _ => none

def UserGonePayload.read : Json → Option UserGonePayload
  | .obj fields => do pure ⟨← Json.text fields "user_id"⟩
  | .arr [.str user] => some ⟨user⟩
  | _ => none

def userCreated : String := "sapiens.user.created"

/-- The event types of the revocation arm. -/
def userGone : List String := ["sapiens.user.deactivated", "sapiens.user.deleted", "sapiens.user.anonymized"]

/-- A `created` event of the sapiens user and the address. -/
def Envelope.Creates (P : Portal) (email : String) (sapiens : Uuid) (env : Envelope) : Prop :=
  env.eventType = userCreated ∧ ∃ payload, UserCreatedPayload.read env.payload = some payload ∧
    Uuid.parse payload.userId = some sapiens ∧ P.normalizeEmail payload.email = email

/-- A `deactivated`, `deleted` or `anonymized` event of the sapiens user. -/
def Envelope.Ends (sapiens : Uuid) (env : Envelope) : Prop :=
  env.eventType ∈ userGone ∧ ∃ payload, UserGonePayload.read env.payload = some payload ∧
    Uuid.parse payload.userId = some sapiens

def handlerName : String := "portal.sapiens_lifecycle"

/-- `EventError::handler`. -/
def eventError (message : String) : Verb α := .fail (.event handlerName message)

namespace Portal

variable (P : Portal)

/-- A statement whose failure is reported to the bus under a label. -/
def busQuery (label : String) (q : Stmt) : Verb q.Res :=
  .act (.sql q) fun
    | .ok r => .ret r
    | .error e => eventError (label ++ ": " ++ P.sqlErrorText e)

/-- The audit rows of the handler. -/
def lifecycleAudit (label action : String) (env : Envelope) (user : Option Uuid) (sapiens : Uuid) : Verb Unit :=
  P.busQuery label (.appendAudit (recordAudit action (some ("lifecycle:" ++ env.eventType)) user none none
    (.object [("envelope_id", .str env.id), ("sapiens_user_id", .str sapiens.display)])))

def onCreated (env : Envelope) : Verb Unit :=
  match UserCreatedPayload.read env.payload with
  | none =>
    eventError ("created payload: " ++ P.payloadErrorText env.payload ++ " (envelope " ++ env.id ++ ")")
  | some payload =>
    match Uuid.parse payload.userId with
    | none => eventError ("created payload.user_id is not a uuid: " ++ payload.userId)
    | some sapiens => do
      let email := P.normalizeEmail payload.email
      match ← P.busQuery "onboarding stamp" (.stampSapiens sapiens email) with
      | some user => P.lifecycleAudit "onboarding audit" "onboarding_linked" env (some user) sapiens
      | none => P.lifecycleAudit "non-action audit" "onboarding_no_invitation" env none sapiens

/-- The revocation's error as the bus sees it. -/
def busError (label : String) : Halt → Halt
  | .err e => .event handlerName (label ++ ": " ++ e.display P.sqlErrorText)
  | h => h

def onUserGone (env : Envelope) : Verb Unit :=
  match UserGonePayload.read env.payload with
  | none =>
    eventError
      (env.eventType ++ " payload: " ++ P.payloadErrorText env.payload ++ " (envelope " ++ env.id ++ ")")
  | some payload =>
    match Uuid.parse payload.userId with
    | none => eventError ("payload.user_id is not a uuid: " ++ payload.userId)
    | some sapiens => do
      match ← P.busQuery "principal lookup" (.principalByLink sapiens) with
      | none => pure ()
      | some user => do
        match ← (revokeAccess user ("lifecycle:" ++ env.eventType) "lifecycle").mapErr
          (P.busError "revocation arm") with
        | false => pure ()
        | true => P.lifecycleAudit "revocation audit" "lifecycle_access_revoked" env (some user) sapiens

def handle (env : Envelope) : Verb Unit :=
  if env.eventType = userCreated then P.onCreated env
  else if env.eventType ∈ userGone then P.onUserGone env
  else eventError ("subscribed pattern matched an unhandled type: " ++ env.eventType)

end Portal

end BackbonePortal
