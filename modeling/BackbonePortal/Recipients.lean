import BackbonePortal.Credentials

/-!
# The recipient credential

The stateless credential of one recipient: minted under a secret of its own and
verified from the string alone.
-/

namespace BackbonePortal

open Proc

def recipientHmacTtlDays : Int := 180

def domainRecipient : String := "portal-recipient"

structure RecipientCredential where
  userId : Uuid
  email : String
  exp : Int
  mac : String
deriving DecidableEq, Repr

def recipientMacInput (user : Uuid) (email : String) (exp : Int) : String :=
  domainRecipient ++ "|" ++ user.display ++ "|" ++ email ++ "|" ++ toString exp

/-- The arms are consumed from both ends: what is left between them is the email. -/
def parseRecipient (value : String) : Option RecipientCredential :=
  match splitAt '.' value with
  | [] => none
  | id :: arms => do
    let userId ← Uuid.parse id
    let mac := arms.getLastD ""
    if byteLen mac ≠ 64 then none
    else do
      let exp ← parseI64 (arms.dropLast.getLastD "")
      pure ⟨userId, ".".intercalate arms.dropLast.dropLast, exp, mac⟩

namespace Portal

variable (P : Portal)

/-- The configured recipient secret; an empty one is not a secret. -/
def recipientKey : Except PortalError (List UInt8) :=
  if P.recipientSecret = [] then .error .recipientSecretNotConfigured else .ok P.recipientSecret

def mintRecipientCredential (user : Uuid) (email : String) : Verb String := do
  let secret ← ofExcept P.recipientKey
  let now ← utcNow
  let expires ← daysAfter recipientHmacTtlDays now
  let exp := expires.timestamp
  let mac := P.computeMac secret (recipientMacInput user email exp)
  audit "recipient_hmac_minted" (some user) none none "system" (.object [("expires_at", .num exp)])
  pure (user.display ++ "." ++ email ++ "." ++ toString exp ++ "." ++ mac)

def verifyRecipientCredential (value : String) (now : Int) : Bool :=
  match P.recipientKey with
  | .error _ => false
  | .ok secret =>
    match parseRecipient value with
    | none => false
    | some c => P.verifyMac secret (recipientMacInput c.userId c.email c.exp) c.mac && now ≤ c.exp

end Portal

end BackbonePortal
