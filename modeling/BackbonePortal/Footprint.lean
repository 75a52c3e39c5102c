import BackbonePortal.Requests

/-!
# What the verbs perform

Two transactions carry the laws of the credential tables. Every verb but
`rotate_bearer` and `redeem` performs neither of them, and these two perform
their own only.
-/

namespace BackbonePortal

open Proc

def Act.Plain : Act → Prop
  | .sql (.rotateToken ..) => False
  | .sql (.redeemInvite ..) => False
  | _ => True

def Act.Quiet : Act → Prop
  | .sql (.appendAudit _) => False
  | a => a.Plain

def Json.Lacks (key : String) : Json → Prop
  | .obj fields => ∀ f ∈ fields, f.1 ≠ key
  | _ => True

/-- A row of the module's one audit call, whose detail leaves the folded principal alone. -/
def AuditEvent.Recorded (event : AuditEvent) : Prop :=
  ∃ action actor user invite token detail, event = recordAudit action actor user invite token detail ∧
    Json.Lacks "portal_user_id" detail

theorem Json.mem_insert {k : String} {v : Json} {f : String × Json} {fs : List (String × Json)}
    (h : f ∈ Json.insert k v fs) : f = (k, v) ∨ f ∈ fs := by
  induction fs with
  | nil => exact .inl (List.mem_singleton.mp h)
  | cons g fs ih =>
    unfold Json.insert at h
    split at h
    · exact (List.mem_cons.mp h).imp_right (List.mem_cons_of_mem _)
    · split at h
      · exact List.mem_cons.mp h
      · rcases List.mem_cons.mp h with rfl | h
        · exact .inr List.mem_cons_self
        · exact (ih h).imp_right (List.mem_cons_of_mem _)

theorem Json.find_insert_self {k : String} {v : Json} {fs : List (String × Json)} :
    (Json.insert k v fs).find? (fun f => f.1 = k) = some (k, v) := by
  induction fs with
  | nil => simp [Json.insert]
  | cons f fs ih =>
    unfold Json.insert
    by_cases he : k = f.1
    · simp [he]
    · by_cases hlt : k < f.1
      · simp [he, hlt]
      · rw [if_neg he, if_neg hlt, List.find?_cons_of_neg (by simpa using Ne.symm he), ih]

theorem Json.find_insert_other {k key : String} {v : Json} {fs : List (String × Json)} (h : k ≠ key) :
    (Json.insert k v fs).find? (fun f => f.1 = key) = fs.find? fun f => f.1 = key := by
  induction fs with
  | nil => simp [Json.insert, h]
  | cons f fs ih =>
    unfold Json.insert
    by_cases he : k = f.1
    · rw [if_pos he, List.find?_cons_of_neg (by simpa using h),
        List.find?_cons_of_neg (by simpa [← he] using h)]
    · by_cases hlt : k < f.1
      · rw [if_neg he, if_pos hlt, List.find?_cons_of_neg (by simpa using h)]
      · rw [if_neg he, if_neg hlt]
        by_cases hk : f.1 = key
        · rw [List.find?_cons_of_pos (by simpa using hk), List.find?_cons_of_pos (by simpa using hk)]
        · rw [List.find?_cons_of_neg (by simpa using hk), List.find?_cons_of_neg (by simpa using hk), ih]

theorem Json.text_insert_self {k s : String} {fs : List (String × Json)} :
    Json.text (Json.insert k (.str s) fs) k = some s := by
  unfold Json.text
  rw [Json.find_insert_self]

theorem Json.text_insert_other {k key : String} {v : Json} {fs : List (String × Json)} (h : k ≠ key) :
    Json.text (Json.insert k v fs) key = Json.text fs key := by
  unfold Json.text
  rw [Json.find_insert_other h]

theorem Json.text_lacks {key : String} {fs : List (String × Json)} (h : ∀ f ∈ fs, f.1 ≠ key) :
    Json.text fs key = none := by
  unfold Json.text
  rw [List.find?_eq_none.mpr fun f hf => by simpa using h f hf]

theorem Json.lacks_object {key : String} {fields : List (String × Json)} (h : key ∉ fields.map Prod.fst) :
    Json.Lacks key (.object fields) := by
  have key_ne : ∀ (fields fs : List (String × Json)), (∀ f ∈ fs, f.1 ≠ key) → key ∉ fields.map Prod.fst →
      ∀ f ∈ fields.foldl (fun fs f => Json.insert f.1 f.2 fs) fs, f.1 ≠ key := by
    intro fields
    induction fields with
    | nil => exact fun fs hfs _ => hfs
    | cons g fields ih =>
      intro fs hfs hkey
      rw [List.map_cons, List.mem_cons, not_or] at hkey
      refine ih _ (fun f hf => ?_) hkey.2
      rcases Json.mem_insert hf with rfl | hf
      · exact fun he => hkey.1 he.symm
      · exact hfs f hf
  exact key_ne fields [] (fun _ hf => nomatch hf) h

/-- Plain, and neither the insert of a signup nor the flip of a revocation. -/
def Act.Common : Act → Prop
  | .sql (.insertSignup ..) => False
  | .sql (.revokeUser ..) => False
  | .sql (.appendAudit event) => event.Recorded
  | a => a.Plain

theorem Act.Common.plain {a : Act} (h : a.Common) : a.Plain := by
  cases a with
  | sql q => cases q <;> first | exact h.elim | trivial
  | _ => trivial

def Act.Basic : Act → Prop
  | .sql (.insertInvite ..) => False
  | a => a.Common

theorem Act.Basic.common {a : Act} (h : a.Basic) : a.Common := by
  cases a with
  | sql q => cases q <;> first | exact h | exact h.elim
  | _ => trivial

/-- A basic action that asks for no invitation and reads no trail. -/
def Act.Enters : Act → Prop
  | .sql (.inviteById _) | .sql (.redeemInvite ..) | .sql (.revokeInvite ..) | .sql (.revokePending ..) => False
  | .sql .sweepExpired | .sql (.accessHistory ..) => False
  | a => a.Basic

theorem Act.Enters.basic {a : Act} (h : a.Enters) : a.Basic := by
  cases a with
  | sql q => cases q <;> first | exact h.elim | exact h
  | _ => exact h

theorem basic_enters {A : Act → Prop} (hA : ∀ a, Act.Basic a → A a) (a : Act) (h : a.Enters) :
    A a := hA a h.basic

def Act.Mints : Act → Prop
  | .newUuid | .mintNonce | .now | .sql (.insertToken ..) => True
  | .sql (.appendAudit event) => event.Recorded
  | _ => False

theorem Act.Mints.enters {a : Act} (h : a.Mints) : a.Enters := by
  cases a with
  | sql q => cases q <;> first | exact h | exact h.elim
  | _ => trivial

theorem Act.Mints.basic {a : Act} (h : a.Mints) : a.Basic := h.enters.basic

def Act.Verifies : Act → Prop
  | .now | .sql (.bearerById _) | .sql (.userStatus _) | .sql (.touchLastUsed _) => True
  | _ => False

theorem Act.Verifies.basic {a : Act} (h : a.Verifies) : a.Basic := by
  cases a with
  | sql q => cases q <;> first | exact h.elim | trivial
  | _ => trivial

theorem Act.Verifies.quiet {a : Act} (h : a.Verifies) : a.Quiet := by
  cases a with
  | sql q => cases q <;> first | exact h.elim | trivial
  | _ => trivial

section
variable {A : Act → Prop} {α : Type}

theorem all_step {a : Act} (h : A a) : (@Prog.perform portalSig Halt a).All A := ⟨h, fun _ => trivial⟩

theorem all_query {q : Stmt} (h : A (.sql q)) : (query q).All A := ⟨h, fun r => by cases r <;> trivial⟩

theorem all_audit (hA : ∀ a, Act.Mints a → A a) {action actor : String} {user invite token : Option Uuid}
    {fields : List (String × Json)} (hd : "portal_user_id" ∉ fields.map Prod.fst) :
    (audit action user invite token actor (.object fields)).All A :=
  all_query (hA _ ⟨_, _, _, _, _, _, rfl, Json.lacks_object hd⟩)

theorem all_checkKey {key : String} {now : Instant} (h : A (.check key now)) : (checkKey key now).All A :=
  ⟨h, fun r => by cases r <;> trivial⟩

theorem all_ofExcept (x : Except PortalError α) : (ofExcept x).All A := by cases x <;> trivial

theorem all_lifetime {unit : String} {perUnit n : Int} {now : Instant} :
    (lifetime unit perUnit n now).All A := by
  unfold lifetime
  split
  · trivial
  · split <;> trivial

theorem all_answered {p : Verb α} {ok : α → Response} {err : PortalError → Verb Response} (hp : p.All A)
    (herr : ∀ e, (err e).All A) : (answered p ok err).All A := by
  refine .bind hp.attempt fun r => ?_
  cases r with
  | ok a => trivial
  | error h =>
    cases h with
    | err e => exact herr e
    | event h m => trivial
    | panicked m => trivial

theorem extract_all {body : Body α} {handler : α → Verb Response} (h : ∀ b, (handler b).All A) :
    (extract body handler).All A := by
  cases body with
  | ok b => exact h b
  | error e => trivial

variable (P : Portal)

theorem busQuery_all {label : String} {q : Stmt} (h : A (.sql q)) : (P.busQuery label q).All A :=
  ⟨h, fun r => by cases r <;> trivial⟩

theorem mintBearer_all (hA : ∀ a, Act.Mints a → A a) (user : Uuid) (ttl : Int) :
    (P.mintBearer user ttl).All A :=
  .bind (all_ofExcept _) fun _ => .bind (all_step (hA _ trivial)) fun _ =>
    .bind (all_step (hA _ trivial)) fun _ =>
    .bind (all_step (hA _ trivial)) fun _ => .bind all_lifetime fun _ =>
      .bind (all_query (hA _ trivial)) fun _ =>
      .bind (all_audit hA (by simp)) fun _ => all_ofExcept _

theorem verifyBearer_all (hA : ∀ a, Act.Verifies a → A a) (link : String) : (P.verifyBearer link).All A := by
  refine .bind (all_ofExcept _) fun secret => ?_
  split
  · trivial
  refine .bind (all_query (hA _ trivial)) fun row => ?_
  split
  · trivial
  split
  · trivial
  refine .bind (all_step (hA _ trivial)) fun now => ?_
  split
  · trivial
  split
  · trivial
  refine .bind (all_query (hA _ trivial)) fun status => ?_
  split
  · trivial
  split
  · trivial
  exact .bind (all_step (hA _ trivial)) fun _ => trivial

/-! ## Sessions and mints -/

section
variable (hA : ∀ a, Act.Enters a → A a)

include hA

theorem audit_all {action actor : String} {user invite token : Option Uuid} {fields : List (String × Json)}
    (hd : "portal_user_id" ∉ fields.map Prod.fst) :
    (audit action user invite token actor (.object fields)).All A :=
  all_audit (fun a h => hA a h.enters) hd

theorem mintInvite_all (email : String) (grantedBy : Option Uuid) (ttl : Int)
    (hinv : ∀ id nonce expires, A (.sql (.insertInvite id (P.normalizeEmail email) nonce expires grantedBy))) :
    (P.mintInvite email grantedBy ttl).All A := by
  unfold Portal.mintInvite
  dsimp only
  split
  · trivial
  exact .bind (all_step (hA _ trivial)) fun _ => .bind (all_step (hA _ trivial)) fun _ =>
    .bind (all_step (hA _ trivial)) fun _ => .bind all_lifetime fun _ => .bind (all_query (hinv ..)) fun _ =>
      .bind (audit_all hA (by simp)) fun _ => all_ofExcept _

theorem signupOpen_all : signupOpen.All A := by
  refine .bind (all_step (hA _ trivial)) fun r => ?_
  split <;> trivial

theorem setSignupPolicy_all (enabled : Bool) (note : Option String) (officer : Option Uuid) :
    (setSignupPolicy enabled note officer).All A :=
  .bind (all_step (hA _ trivial)) fun _ => .bind (all_query (hA _ trivial)) fun _ =>
    audit_all hA (by simp)

theorem revokeAllBearers_all (user : Uuid) (reason actor : String) :
    (revokeAllBearers user reason actor).All A := by
  refine .bind (all_query (hA _ trivial)) fun n => ?_
  split
  · exact .bind (audit_all hA (by simp)) fun _ => trivial
  · trivial

theorem registerNow_all (key : String) : (registerNow key).All A :=
  .bind (all_step (hA _ trivial)) fun _ => all_step (hA _ trivial)

theorem checkNow_all (key : String) : (checkNow key).All A :=
  .bind (all_step (hA _ trivial)) fun _ => all_checkKey (hA _ trivial)

theorem refuseLogin_all (user : Option Uuid) (idKey ipKey : String) {fields : List (String × Json)}
    (hd : "portal_user_id" ∉ fields.map Prod.fst) :
    (Portal.refuseLogin user idKey ipKey (.object fields) : Verb α).All A :=
  .bind (registerNow_all hA _) fun _ => .bind (registerNow_all hA _) fun _ =>
    .bind (audit_all hA hd) fun _ => trivial

theorem succeedLogin_all (user : Uuid) (idKey ipKey event : String) :
    (P.succeedLogin user idKey ipKey event).All A :=
  .bind (all_step (hA _ trivial)) fun _ => .bind (all_step (hA _ trivial)) fun _ =>
    .bind (all_step (hA _ trivial)) fun _ => .bind (mintBearer_all P (fun a h => hA a h.enters) _ _) fun _ =>
      .bind (audit_all hA (by simp)) fun _ => trivial

theorem verifyAndMint_all (email presented ip event : String) :
    (P.verifyAndMint email presented ip event).All A := by
  refine .bind (all_step (hA _ trivial)) fun now => .bind (all_checkKey (hA _ trivial)) fun _ =>
    .bind (all_checkKey (hA _ trivial)) fun _ => .bind (all_query (hA _ trivial)) fun r => ?_
  split
  · exact refuseLogin_all hA _ _ _ (by simp)
  split
  · exact refuseLogin_all hA _ _ _ (by simp)
  refine .bind (all_step (hA _ trivial)) fun v => ?_
  split
  · exact succeedLogin_all P hA _ _ _ _
  · exact refuseLogin_all hA _ _ _ (by simp)
  · trivial
  · exact .bind (audit_all hA (by simp)) fun _ => trivial

theorem login_all (email presented ip : String) : (P.login email presented ip).All A := by
  unfold Portal.login
  dsimp only
  split
  · trivial
  · exact verifyAndMint_all P hA _ _ _ _

theorem createdPrincipal_all (email : String) (inserted : Option Uuid) :
    (Portal.createdPrincipal email inserted).All A := by
  unfold Portal.createdPrincipal
  split
  · trivial
  · refine .bind (all_query (hA _ trivial)) fun r => ?_
    split <;> trivial

theorem createPrincipal_all (email : String) (hsig : ∀ id, A (.sql (.insertSignup id email))) :
    (P.createPrincipal email).All A := by
  exact .bind (all_step (hA _ trivial)) fun id => .bind (all_query (hsig ..)) fun r =>
    .bind (createdPrincipal_all hA _ _) fun user => .bind (audit_all hA (by simp)) fun _ =>
      .bind (mintBearer_all P (fun a h => hA a h.enters) _ _) fun _ => trivial

theorem signup_all (hsig : ∀ id raw, A (.sql (.insertSignup id (P.normalizeEmail raw))))
    (email presented ip : String) :
    (P.signup email presented ip).All A := by
  unfold Portal.signup
  dsimp only
  split
  · trivial
  refine .bind (signupOpen_all hA) fun is_open => ?_
  cases is_open with
  | false => exact .bind (audit_all hA (by simp)) fun _ => trivial
  | true =>
    refine .bind (all_query (hA _ trivial)) fun r => ?_
    split
    · split
      · trivial
      · exact verifyAndMint_all P hA _ _ _ _
    · refine .bind (checkNow_all hA _) fun _ => .bind (checkNow_all hA _) fun _ =>
        .bind (all_step (hA _ trivial)) fun v => ?_
      split
      · exact createPrincipal_all P hA _ fun id => hsig id email
      · exact .bind (registerNow_all hA _) fun _ => .bind (registerNow_all hA _) fun _ => trivial
      · trivial
      · exact .bind (audit_all hA (by simp)) fun _ => trivial

end

/-! ## Bearers, invitations, revocation -/

section
variable (hA : ∀ a, Act.Basic a → A a)

include hA

theorem rotateBearer_all (hrot : ∀ id successor user nonce expires,
    A (.sql (.rotateToken id successor user nonce expires))) (link : String) (ttl : Int) :
    (P.rotateBearer link ttl).All A := by
  refine .bind (verifyBearer_all P (fun a h => hA a h.basic) link) fun p => ?_
  split
  · trivial
  refine .bind (all_step (hA _ trivial)) fun _ => .bind (all_step (hA _ trivial)) fun _ =>
    .bind (all_step (hA _ trivial)) fun _ => .bind all_lifetime fun _ => .bind (all_query (hrot ..)) fun r => ?_
  cases r with
  | false => trivial
  | true => exact .bind (audit_all (basic_enters hA) (by simp)) fun _ => all_ofExcept _

theorem revokeBearer_all (id : Uuid) (reason actor : String) : (revokeBearer id reason actor).All A := by
  refine .bind (all_query (hA _ trivial)) fun r => ?_
  cases r with
  | none => trivial
  | some user => exact audit_all (basic_enters hA) (by simp)

omit hA in
theorem inviteAgrees_email {parts : ParsedCapability} {presenting : String} {row : InviteJoin}
    (h : P.inviteAgrees parts presenting row = true) : presenting = row.recipientEmail := by
  simp only [Portal.inviteAgrees, Bool.and_eq_true, decide_eq_true_eq] at h
  exact h.1.2

theorem redeem_all (hred : ∀ id user raw, A (.sql (.redeemInvite id user (P.normalizeEmail raw))))
    (link email : String) :
    (P.redeem link email).All A := by
  unfold Portal.redeem
  dsimp only
  split
  · trivial
  refine .bind (all_query (hA _ trivial)) fun row => ?_
  split
  · trivial
  split
  · trivial
  next hagrees =>
  refine .bind (all_step (hA _ trivial)) fun now => ?_
  split
  · trivial
  refine .bind (all_step (hA _ trivial)) fun user => .bind (all_query ?_) fun r => ?_
  · rw [← inviteAgrees_email P (Bool.not_eq_false _ ▸ hagrees)]
    exact hred ..
  cases r with
  | false => trivial
  | true =>
    exact .bind (audit_all (basic_enters hA) (by simp)) fun _ =>
      .bind (mintBearer_all P (fun a h => hA a h.basic) _ _) fun _ => trivial

theorem revokeInvite_all (id : Uuid) (reason actor : String) : (revokeInvite id reason actor).All A := by
  refine .bind (all_query (hA _ trivial)) fun n => ?_
  split
  · trivial
  · exact audit_all (basic_enters hA) (by simp)

theorem revokePendingForEmail_all (email reason actor : String) :
    (P.revokePendingForEmail email reason actor).All A := by
  refine .bind (all_query (hA _ trivial)) fun n => ?_
  split
  · exact .bind (audit_all (basic_enters hA) (by simp)) fun _ => trivial
  · trivial

theorem revokeAccess_all (hrev : ∀ id reason, A (.sql (.revokeUser id reason)))
    (user : Uuid) (reason actor : String) :
    (revokeAccess user reason actor).All A := by
  refine .bind (all_query (hrev ..)) fun r => ?_
  split
  · trivial
  · exact .bind (revokeAllBearers_all (basic_enters hA) _ _ _) fun _ =>
      .bind (all_query (hA _ trivial)) fun _ => trivial

/-! ## Lifecycle, surface, routes -/

theorem lifecycleAudit_all (label action : String) (env : Envelope) (user : Option Uuid) (sapiens : Uuid) :
    (P.lifecycleAudit label action env user sapiens).All A :=
  busQuery_all P (hA _ ⟨_, _, _, _, _, _, rfl, Json.lacks_object (by simp)⟩)

theorem onCreated_all (env : Envelope) : (P.onCreated env).All A := by
  unfold Portal.onCreated
  split
  · trivial
  split
  · trivial
  refine .bind (busQuery_all P (hA _ trivial)) fun r => ?_
  split <;> exact lifecycleAudit_all P hA _ _ _ _ _

theorem onUserGone_all (hrev : ∀ id reason, A (.sql (.revokeUser id reason))) (env : Envelope) :
    (P.onUserGone env).All A := by
  unfold Portal.onUserGone
  split
  · trivial
  split
  · trivial
  refine .bind (busQuery_all P (hA _ trivial)) fun r => ?_
  split
  · trivial
  refine .bind (revokeAccess_all hA hrev _ _ _).mapErr fun flipped => ?_
  split
  · trivial
  · exact lifecycleAudit_all P hA _ _ _ _ _

theorem handle_all (hrev : ∀ id reason, A (.sql (.revokeUser id reason))) (env : Envelope) :
    (P.handle env).All A := by
  unfold Portal.handle
  split
  · exact onCreated_all P hA env
  split
  · exact onUserGone_all P hA hrev env
  · trivial

theorem view_all (user : Uuid) : (view user).All A := by
  refine .bind (all_query (hA _ trivial)) fun r => ?_
  split <;> trivial

theorem updateMyDetails_all (p : PortalPrincipal) (patch : PortalDetailPatch) :
    (updateMyDetails p patch).All A := by
  unfold updateMyDetails
  split
  · trivial
  refine .bind (all_ofExcept _) fun _ => .bind (all_query (hA _ trivial)) fun n => ?_
  split
  · trivial
  · exact view_all hA _

theorem redeemInviteRoute_all
    (hred : ∀ id user raw, A (.sql (.redeemInvite id user (P.normalizeEmail raw)))) (headers : Headers)
    (body : Body RedeemInviteRequest) : (P.redeemInviteRoute headers body).All A := by
  refine extract_all fun b => all_answered (redeem_all P hA hred _ _) fun e => ?_
  split
  · exact .bind (registerNow_all (basic_enters hA) _) fun _ =>
      .bind (registerNow_all (basic_enters hA) _) fun _ => trivial
  · trivial

theorem loginRoute_all (headers : Headers) (body : Body PasswordRequest) : (P.loginRoute headers body).All A :=
  extract_all fun _ => all_answered (login_all P (basic_enters hA) _ _ _) fun _ => trivial

theorem signupRoute_all (hsig : ∀ id raw, A (.sql (.insertSignup id (P.normalizeEmail raw))))
    (headers : Headers)
    (body : Body PasswordRequest) : (P.signupRoute headers body).All A :=
  extract_all fun _ => all_answered (signup_all P (basic_enters hA) hsig _ _ _) fun _ => trivial

theorem rotateRoute_all (hrot : ∀ id successor user nonce expires,
    A (.sql (.rotateToken id successor user nonce expires))) (headers : Headers) (body : Body RotateRequest) :
    (P.rotateRoute headers body).All A := by
  refine extract_all fun b => .bind (checkNow_all (basic_enters hA) _).attempt fun r => ?_
  split
  · trivial
  · trivial
  apply all_answered (rotateBearer_all P hA hrot _ _)
  intro e
  split
  · exact .bind (registerNow_all (basic_enters hA) _) fun _ => trivial
  · trivial

theorem route_all (hsig : ∀ id raw, A (.sql (.insertSignup id (P.normalizeEmail raw))))
    (hrot : ∀ id successor user nonce expires, A (.sql (.rotateToken id successor user nonce expires)))
    (hred : ∀ id user raw, A (.sql (.redeemInvite id user (P.normalizeEmail raw))))
    (request : RouteRequest) : (P.route request).All A := by
  cases request with
  | redeemInvite headers body => exact redeemInviteRoute_all P hA hred headers body
  | login headers body => exact loginRoute_all P hA headers body
  | signup headers body => exact signupRoute_all P hA hsig headers body
  | rotate headers body => exact rotateRoute_all P hA hrot headers body

def Request.Marked : Request → Prop
  | .rotateBearer .. | .redeem .. | .signup .. | .revokeAccess .. | .handle _ | .route _ => True
  | _ => False

theorem serve_common
    (hinv : ∀ id raw nonce expires grantedBy,
      A (.sql (.insertInvite id (P.normalizeEmail raw) nonce expires grantedBy)))
    {t : Request} (h : ¬t.Marked) : (P.serve t).All A := by
  have mints : ∀ a, Act.Mints a → A a := fun a ha => hA a ha.basic
  cases t with
  | rotateBearer | redeem | signup | revokeAccess | handle | route => exact absurd trivial h
  | mintBearer user ttl => exact .bind (mintBearer_all P mints _ _) fun _ => trivial
  | verifyBearer link => exact .bind (verifyBearer_all P (fun a ha => hA a ha.basic) _) fun _ => trivial
  | revokeBearer id reason actor => exact .bind (revokeBearer_all hA _ _ _) fun _ => trivial
  | revokeAllBearers user reason actor =>
    exact .bind (revokeAllBearers_all (basic_enters hA) _ _ _) fun _ => trivial
  | mintInvite email grantedBy ttl =>
    exact .bind (mintInvite_all P (basic_enters hA) _ _ _ fun _ _ _ => hinv ..) fun _ => trivial
  | revokeInvite id reason actor => exact .bind (revokeInvite_all hA _ _ _) fun _ => trivial
  | revokePendingForEmail email reason actor =>
    exact .bind (revokePendingForEmail_all P hA _ _ _) fun _ => trivial
  | sweepExpired => exact .bind (all_query (hA _ trivial)) fun _ => trivial
  | setSignupPolicy enabled note officer =>
    exact .bind (setSignupPolicy_all (basic_enters hA) _ _ _) fun _ => trivial
  | login email presented ip => exact .bind (login_all P (basic_enters hA) _ _ _) fun _ => trivial
  | myDetails p => exact .bind (view_all hA _) fun _ => trivial
  | updateMyDetails p patch => exact .bind (updateMyDetails_all hA _ _) fun _ => trivial
  | myAccessHistory p limit => exact .bind (all_query (hA _ trivial)) fun _ => trivial

theorem serve_all
    (hinv : ∀ id raw nonce expires grantedBy,
      A (.sql (.insertInvite id (P.normalizeEmail raw) nonce expires grantedBy)))
    (hsig : ∀ id raw, A (.sql (.insertSignup id (P.normalizeEmail raw))))
    (hrev : ∀ id reason, A (.sql (.revokeUser id reason)))
    (hrot : ∀ id successor user nonce expires, A (.sql (.rotateToken id successor user nonce expires)))
    (hred : ∀ id user raw, A (.sql (.redeemInvite id user (P.normalizeEmail raw)))) (t : Request) :
    (P.serve t).All A := by
  cases t with
  | rotateBearer link ttl => exact .bind (rotateBearer_all P hA hrot _ _) fun _ => trivial
  | redeem link email => exact .bind (redeem_all P hA hred _ _) fun _ => trivial
  | signup email presented ip => exact .bind (signup_all P (basic_enters hA) hsig _ _ _) fun _ => trivial
  | revokeAccess user reason actor => exact .bind (revokeAccess_all hA hrev _ _ _) fun _ => trivial
  | handle env => exact .bind (handle_all P hA hrev _) fun _ => trivial
  | route request => exact .bind (route_all P hA hsig hrot hred request) fun _ => trivial
  | _ => exact serve_common P hA hinv not_false

end

end

def Request.Fenced : Request → Prop
  | .rotateBearer .. => True
  | .redeem .. => True
  | .route _ => True
  | _ => False

theorem serve_plain (P : Portal) {t : Request} (h : ¬t.Fenced) : (P.serve t).All Act.Plain := by
  have hA : ∀ a, Act.Basic a → Act.Plain a := fun _ h => h.common.plain
  cases t with
  | rotateBearer | redeem | route => exact absurd trivial h
  | signup email presented ip =>
    exact .bind (signup_all P (basic_enters hA) (fun _ _ => trivial) _ _ _) fun _ => trivial
  | revokeAccess user reason actor =>
    exact .bind (revokeAccess_all hA (fun _ _ => trivial) _ _ _) fun _ => trivial
  | handle env => exact .bind (handle_all P hA (fun _ _ => trivial) _) fun _ => trivial
  | _ => exact serve_common P hA (fun _ _ _ _ _ => trivial) not_false

/-! ## Refusals -/

/-- The verb does not return a value. -/
def Fails {α : Type} (o : Except Halt α) : Prop := ∃ e, o = .error e

section
variable {α β : Type}

theorem fails_refuse (e : PortalError) : (refuse e : Verb α).Ends Fails := ⟨_, rfl⟩

theorem fails_bind (p : Verb β) {f : β → Verb α} (hf : ∀ b, (f b).Ends Fails) : (p.bind f).Ends Fails :=
  Prog.ends_bind_right p hf fun e => ⟨e, rfl⟩

theorem refuseLogin_fails (user : Option Uuid) (idKey ipKey : String) (detail : Json) :
    (Portal.refuseLogin user idKey ipKey detail : Verb α).Ends Fails :=
  fails_bind _ fun _ => fails_bind _ fun _ => fails_bind _ fun _ => fails_refuse _

end

end BackbonePortal
