import BackbonePortal.Credentials

/-!
# The document surface

The self-service read models and the one write verb over the declared columns.
-/

namespace BackbonePortal

open Proc

structure PortalAccountView where
  userId : Uuid
  email : String
  status : String
  details : Details
  lastLoginAt : Option Instant
  updatedAt : Option Instant
deriving DecidableEq, Repr

def DetailColumn.name : DetailColumn → String
  | .displayName => "display_name"
  | .phone => "phone"
  | .street => "street"
  | .street2 => "street2"
  | .city => "city"
  | .stateId => "state_id"
  | .countryId => "country_id"
  | .zip => "zip"
  | .vat => "vat"
  | .companyName => "company_name"

/-- The declared maximum, which `validate` compares with a length in bytes. -/
def DetailColumn.max : DetailColumn → Nat
  | .displayName => 120
  | .phone => 40
  | .street => 160
  | .street2 => 160
  | .city => 80
  | .stateId => 80
  | .countryId => 8
  | .zip => 24
  | .vat => 40
  | .companyName => 120

/-- The typed patch: one arm a writable column, `none` leaves it unchanged. -/
structure PortalDetailPatch where
  displayName : Option String := none
  phone : Option String := none
  street : Option String := none
  street2 : Option String := none
  city : Option String := none
  stateId : Option String := none
  countryId : Option String := none
  zip : Option String := none
  vat : Option String := none
  companyName : Option String := none
deriving DecidableEq, Repr

namespace PortalDetailPatch

/-- The arms in the order they are checked and bound. -/
def arms (p : PortalDetailPatch) : List (DetailColumn × Option String) :=
  [(.displayName, p.displayName), (.phone, p.phone), (.street, p.street), (.street2, p.street2),
    (.city, p.city),
    (.stateId, p.stateId), (.countryId, p.countryId), (.zip, p.zip), (.vat, p.vat),
    (.companyName, p.companyName)]

def isEmpty (p : PortalDetailPatch) : Bool := p.arms.all fun a => a.2.isNone

/-- The first arm longer than its maximum. -/
def validate (p : PortalDetailPatch) : Except PortalError Unit :=
  match p.arms.find? fun a => a.2.any fun v => a.1.max < byteLen v with
  | some (c, _) => .error (.invalidInput (c.name ++ " exceeds the maximum length of " ++ toString c.max))
  | none => .ok ()

/-- The SET list the query builder assembles. -/
def sets (p : PortalDetailPatch) : List (DetailColumn × String) :=
  p.arms.filterMap fun a => a.2.map fun v => (a.1, v)

end PortalDetailPatch

def view (user : Uuid) : Verb PortalAccountView := do
  match ← query (.viewRow user) with
  | none => refuse (.notFound ("principal " ++ user.display))
  | some u => pure ⟨u.id, u.email, u.status.text, u.details, u.lastLoginAt, u.metadata.updatedAt⟩

def myDetails (principal : PortalPrincipal) : Verb PortalAccountView := view principal.userId

def updateMyDetails (principal : PortalPrincipal) (patch : PortalDetailPatch) : Verb PortalAccountView :=
  if patch.isEmpty then refuse (.invalidInput "the patch sets no field")
  else do
    ofExcept patch.validate
    let n ← query (.updateDetails principal.userId patch.sets)
    if n ≠ 1 then refuse (.notFound ("principal " ++ principal.userId.display))
    else view principal.userId

def myAccessHistory (principal : PortalPrincipal) (limit : Int) : Verb (List PortalAccessEvent) :=
  query (.accessHistory principal.userId (min (max limit 1) 100).toNat)

end BackbonePortal
