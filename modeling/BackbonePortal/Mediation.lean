import BackbonePortal.Calls
import BackbonePortal.Precedence

/-!
# Complete mediation

What a call must have been told before it may perform a privileged action: the
verifier's yes before anything is done for a password, the agreeing row before
an invitation is redeemed or a bearer rotated, the open policy before a signup
inserts, the deputy's own request before an officer's write. No path of any
verb performs one without.
-/

namespace BackbonePortal

open Proc

/-! ## What a call presents -/

namespace PortalCall

/-- The address and the password. -/
def password : PortalCall → Option (String × String)
  | .request (.login email presented _) | .request (.signup email presented _) => some (email, presented)
  | .request (.route (.login _ (.ok body))) | .request (.route (.signup _ (.ok body))) =>
    some (body.email, body.password)
  | _ => none

def signsUp : PortalCall → Bool
  | .request (.signup ..) | .request (.route (.signup ..)) => true
  | _ => false

/-- The link and the address of a redemption. -/
def invitation : PortalCall → Option (String × String)
  | .request (.redeem link email) => some (link, email)
  | .request (.route (.redeemInvite _ (.ok body))) => some (body.link, body.email)
  | _ => none

/-- The bearer to rotate. -/
def rotated : PortalCall → Option String
  | .request (.rotateBearer link _) => some link
  | .request (.route (.rotate _ (.ok body))) => some body.token
  | _ => none

/-- The principal the host states for a call of the surface. -/
def stated : PortalCall → Option PortalPrincipal
  | .request (.myDetails principal) | .request (.updateMyDetails principal _) => some principal
  | .request (.myAccessHistory principal _) | .customer (.surface principal _) => some principal
  | _ => none

/-- The bearer behind an account route. -/
def bearer : PortalCall → Option String
  | .customer (.me authorization) | .customer (.updateMe authorization _)
  | .customer (.accessHistory authorization) => presentedBearer authorization
  | _ => none

def patch : PortalCall → Option PortalDetailPatch
  | .request (.updateMyDetails _ patch) | .customer (.surface _ (.updateMyDetails patch)) => some patch
  | .customer (.updateMe _ (.ok body)) => PortalDetailPatch.read body
  | _ => none

end PortalCall

/-! ## What it was told -/

abbrev Past := List (Event portalSig)

/-- The verifier said yes to the address. -/
def Accepted (past : Past) (email : String) : Prop :=
  ∃ presented, (⟨.verify email presented, some (.ok true)⟩ : Event portalSig) ∈ past

/-- A redemption admitted the principal, or the verifier said yes to the address
it was found or inserted at. -/
inductive Vouched (past : Past) (user : Uuid) : Prop where
  | redeemed (invite : Uuid) (email : String)
    (settled : ⟨.sql (.redeemInvite invite user email), .ok true⟩ ∈ past)
  | found (email : String) (yes : Accepted past email) (status : PortalUserStatus)
    (row : ⟨.sql (.liveUserByEmail email), .ok (some (user, status))⟩ ∈ past)
  | inserted (email : String) (yes : Accepted past email) (id : Uuid)
    (row : ⟨.sql (.insertSignup id email), .ok (some user)⟩ ∈ past)

/-- The link agreed with an active bearer of the principal, and the principal was active. -/
def Portal.Proven (P : Portal) (link : String) (past : Past) (user : Uuid) : Prop :=
  ∃ parts row, parseCapability link = some parts ∧ ⟨.sql (.bearerById parts.id), .ok (some row)⟩ ∈ past ∧
    P.bearerAgrees P.bearerSecret parts row = true ∧ row.status = .active ∧ row.userId = user ∧
    ⟨.sql (.userStatus user), .ok (some .active)⟩ ∈ past

/-- The call speaks for the principal: the host states it, or its bearer proves it. -/
def Portal.SpeaksFor (P : Portal) (t : PortalCall) (past : Past) (user : Uuid) : Prop :=
  (∃ principal, t.stated = some principal ∧ principal.userId = user) ∨
    ∃ link, t.bearer = some link ∧ P.Proven link past user

/-- What a call must present and have been told before it performs the action. -/
def Portal.Entitled (P : Portal) (t : PortalCall) (past : Past) : Act → Prop
  | .verify email presented => ∃ raw, t.password = some (raw, presented) ∧ email = P.normalizeEmail raw
  | .reset _ => ∃ email, Accepted past email
  | .sql (.touchLastLogin user) => Vouched past user
  | .sql (.insertSignup _ email) => t.signsUp = true ∧ Accepted past email ∧
      ⟨.sql .policyEnabled, .ok true⟩ ∈ past
  | .sql (.insertToken _ user ..) => (∃ ttl, t = .request (.mintBearer user ttl)) ∨ Vouched past user
  | .sql (.rotateToken id _ user ..) => ∃ link parts, t.rotated = some link ∧
      parseCapability link = some parts ∧ parts.id = id ∧ P.Proven link past user
  | .sql (.insertInvite _ email _ _ grantedBy) => ∃ raw ttl,
      t = .request (.mintInvite raw grantedBy ttl) ∧ email = P.normalizeEmail raw
  | .sql (.redeemInvite id _ email) => ∃ link presenting parts row, t.invitation = some (link, presenting) ∧
      parseCapability link = some parts ∧ parts.id = id ∧ ⟨.sql (.inviteById id), .ok (some row)⟩ ∈ past ∧
      P.inviteAgrees parts (P.normalizeEmail presenting) row = true ∧ row.recipientEmail = email
  | .sql (.revokeUser user reason) => (∃ actor, t = .request (.revokeAccess user reason actor)) ∨
      ∃ env sapiens, t = .request (.handle env) ∧ env.Ends sapiens ∧ reason = "lifecycle:" ++ env.eventType ∧
        ⟨.sql (.principalByLink sapiens), .ok (some user)⟩ ∈ past
  | .sql (.stampSapiens sapiens email) => ∃ env, t = .request (.handle env) ∧ env.Creates P email sapiens
  | .sql (.revokeToken id reason) => ∃ actor, t = .request (.revokeBearer id reason actor)
  | .sql (.revokeUserTokens user reason) => (∃ actor, t = .request (.revokeAllBearers user reason actor)) ∨
      ∃ email, ⟨.sql (.revokeUser user reason), .ok (some email)⟩ ∈ past
  | .sql (.revokeInvite id reason) => ∃ actor, t = .request (.revokeInvite id reason actor)
  | .sql (.revokePending email reason) =>
      (∃ raw actor, t = .request (.revokePendingForEmail raw reason actor) ∧ email = P.normalizeEmail raw) ∨
      ∃ user, ⟨.sql (.revokeUser user reason), .ok (some email)⟩ ∈ past
  | .sql .sweepExpired => t = .request .sweepExpired
  | .sql (.replacePolicy _ enabled note officer) => t = .request (.setSignupPolicy enabled note officer)
  | .sql (.viewRow user) | .sql (.accessHistory user _) => P.SpeaksFor t past user
  | .sql (.updateDetails user sets) => P.SpeaksFor t past user ∧
      ∃ patch, t.patch = some patch ∧ patch.isEmpty = false ∧ patch.validate = .ok () ∧ sets = patch.sets
  | _ => True

/-- An action that asks for nothing. -/
def Act.Harmless : Act → Prop
  | .now | .newUuid | .mintNonce | .check .. | .registerFailure .. => True
  | .sql (.liveUserByEmail _) | .sql (.principalByLink _) | .sql (.userStatus _) | .sql (.bearerById _)
  | .sql (.inviteById _) | .sql .policyEnabled | .sql (.touchLastUsed _) | .sql (.appendAudit _) => True
  | _ => False

section
variable {P : Portal} {t : PortalCall} {past past' : Past} {user : Uuid}

theorem harmless_entitled (past : Past) (a : Act) (h : a.Harmless) : P.Entitled t past a := by
  cases a with
  | sql q => cases q <;> first | exact h.elim | trivial
  | verify email presented => exact h.elim
  | reset key => exact h.elim
  | _ => trivial

theorem Accepted.later {email : String} (h : Accepted past email) (hp : past ⊆ past') : Accepted past' email := by
  obtain ⟨presented, hyes⟩ := h
  exact ⟨presented, hp hyes⟩

theorem accepted_of_yes (past : Past) (email presented : String) :
    Accepted (past ++ [⟨.verify email presented, some (.ok true)⟩]) email :=
  ⟨presented, List.mem_append_right _ (List.mem_singleton.mpr rfl)⟩

theorem Vouched.later (h : Vouched past user) (hp : past ⊆ past') : Vouched past' user := by
  cases h with
  | redeemed invite email settled => exact .redeemed invite email (hp settled)
  | found email yes status row => exact .found email (yes.later hp) status (hp row)
  | inserted email yes id row => exact .inserted email (yes.later hp) id (hp row)

theorem Portal.Proven.later {link : String} (h : P.Proven link past user) (hp : past ⊆ past') :
    P.Proven link past' user := by
  obtain ⟨parts, row, hparse, hrow, hagree, hactive, huser, hstatus⟩ := h
  exact ⟨parts, row, hparse, hp hrow, hagree, hactive, huser, hp hstatus⟩

theorem Portal.SpeaksFor.later (h : P.SpeaksFor t past user) (hp : past ⊆ past') : P.SpeaksFor t past' user :=
  h.imp_right fun ⟨link, hlink, hproven⟩ => ⟨link, hlink, hproven.later hp⟩

end

/-! ## The rules -/

section
variable {Req : Past → Act → Prop} {past : Past} {α β : Type}

theorem heeds_after {A : Act → Prop} (hA : ∀ past a, A a → Req past a) {p : Verb α} {f : α → Verb β} (hp : p.All A)
    (hf : ∀ a past', past ⊆ past' → (f a).Heeds Req past') : (p.bind f).Heeds Req past :=
  (Prog.heeds_of_all hA hp past).bind hf

theorem heeds_query {q : Stmt} {f : q.Res → Verb α} (hq : Req past (.sql q))
    (hok : ∀ r, (f r).Heeds Req (past ++ [⟨.sql q, .ok r⟩])) : ((query q).bind f).Heeds Req past := by
  refine ⟨hq, fun r => ?_⟩
  cases r with
  | ok r => exact hok r
  | error e => trivial

theorem heeds_alone {q : Stmt} (hq : Req past (.sql q)) : (query q).Heeds Req past :=
  ⟨hq, fun r => by cases r <;> trivial⟩

theorem heeds_busQuery {P : Portal} {label : String} {q : Stmt} {f : q.Res → Verb α} (hq : Req past (.sql q))
    (hok : ∀ r, (f r).Heeds Req (past ++ [⟨.sql q, .ok r⟩])) : ((P.busQuery label q).bind f).Heeds Req past := by
  refine ⟨hq, fun r => ?_⟩
  cases r with
  | ok r => exact hok r
  | error e => trivial

theorem heeds_busAlone {P : Portal} {label : String} {q : Stmt} (hq : Req past (.sql q)) :
    (P.busQuery label q).Heeds Req past :=
  ⟨hq, fun r => by cases r <;> trivial⟩

theorem heeds_step {a : Act} {f : a.Res → Verb α} (ha : Req past a)
    (hf : ∀ r, (f r).Heeds Req (past ++ [⟨a, r⟩])) :
    (Prog.bind (@Prog.perform portalSig Halt a) f).Heeds Req past := ⟨ha, hf⟩

theorem heeds_answered {p : Verb α} {ok : α → Response} {err : PortalError → Verb Response}
    (hp : p.Heeds Req past) (herr : ∀ e past', (err e).Heeds Req past') :
    (answered p ok err).Heeds Req past := by
  refine Prog.Heeds.bind hp.attempt fun r past' _ => ?_
  cases r with
  | ok a => trivial
  | error h =>
    cases h with
    | err e => exact herr e past'
    | event name message => trivial
    | panicked message => trivial

theorem heeds_reply {p : Verb α} {f : α → Reply} (hp : p.Heeds Req past) : (reply p f).Heeds Req past :=
  Prog.Heeds.bind hp fun _ _ _ => trivial

theorem heeds_extract {body : Body α} {handler : α → Verb Response}
    (h : ∀ b, body = .ok b → (handler b).Heeds Req past) : (extract body handler).Heeds Req past := by
  cases body with
  | ok b => exact h b rfl
  | error e => trivial

end

/-- No path of the verb performs an action the call is not entitled to. -/
abbrev Mediated {α : Type} (P : Portal) (t : PortalCall) (past : Past) (p : Verb α) : Prop :=
  p.Heeds (P.Entitled t) past

section
variable {P : Portal} {t : PortalCall} {past : Past} {α β : Type}

theorem heeds_harmless {p : Verb α} (hp : p.All Act.Harmless) : Mediated P t past p :=
  Prog.heeds_of_all harmless_entitled hp past

theorem mediated_after {p : Verb α} {f : α → Verb β} (hp : p.All Act.Harmless)
    (hf : ∀ a past', past ⊆ past' → Mediated P t past' (f a)) : Mediated P t past (p.bind f) :=
  heeds_after harmless_entitled hp hf

/-! ## The harmless parts -/

theorem audit_harmless {action actor : String} {user invite token : Option Uuid} {detail : Json} :
    (audit action user invite token actor detail).All Act.Harmless := all_query trivial

theorem registerNow_harmless (key : String) : (registerNow key).All Act.Harmless :=
  ⟨trivial, fun _ => ⟨trivial, fun _ => trivial⟩⟩

theorem checkNow_harmless (key : String) : (checkNow key).All Act.Harmless :=
  ⟨trivial, fun _ => all_checkKey trivial⟩

theorem refuseLogin_harmless (user : Option Uuid) (idKey ipKey : String) (detail : Json) :
    (Portal.refuseLogin user idKey ipKey detail : Verb α).All Act.Harmless := by
  refine (registerNow_harmless idKey).bind fun _ => (registerNow_harmless ipKey).bind fun _ => ?_
  exact audit_harmless.bind fun _ => trivial

theorem verifyBearer_harmless (link : String) : (P.verifyBearer link).All Act.Harmless :=
  verifyBearer_all P (fun a h => by
    cases a with
    | sql q => cases q <;> first | exact h.elim | trivial
    | now => trivial
    | _ => exact h.elim) link

theorem signupOpen_harmless : signupOpen.All Act.Harmless := ⟨trivial, fun r => by cases r <;> trivial⟩

end

/-! ## Proving a bearer -/

section
variable {R : β → List (Event portalSig) → Prop}

theorem yields_query {q : Stmt} {f : q.Res → Verb β}
    (hf : ∀ r, (f r).Yields fun b evs => R b (⟨.sql q, .ok r⟩ :: evs)) : ((query q).bind f).Yields R := by
  intro r
  cases r with
  | ok r => exact hf r
  | error e => exact Prog.yields_fail

theorem yields_unless {c : Prop} [Decidable c] {e : PortalError} {p : Verb β} (hp : ¬c → p.Yields R) :
    (if c then refuse e else p).Yields R := by
  split
  · exact Prog.yields_fail
  next h => exact hp h

end

section
variable {P : Portal} {t : PortalCall} {past : Past} {user : Uuid}

theorem verifyBearer_proven (link : String) :
    (P.verifyBearer link).Yields fun p evs => P.Proven link evs p.userId := by
  unfold Portal.verifyBearer
  by_cases hs : P.bearerSecret = []
  · rw [Portal.secret, if_pos hs]
    exact Prog.yields_fail
  rw [secret_eq hs, ofExcept_ok, Prog.bind_eq, Prog.bind_ret]
  split
  · exact Prog.yields_fail
  next parts hparts =>
    refine yields_query fun found => ?_
    cases found with
    | none => exact Prog.yields_fail
    | some row =>
      refine yields_unless fun hagrees now => yields_unless fun _ => yields_unless fun hactive =>
        yields_query fun status => ?_
      cases status with
      | none => exact Prog.yields_fail
      | some status =>
        refine yields_unless fun hstatus touched p hp => ?_
        cases hp
        obtain rfl : status = .active := of_not_not hstatus
        exact ⟨parts, row, hparts, by simp, Bool.not_eq_false _ ▸ hagrees, of_not_not hactive, rfl, by simp⟩

theorem bearerPrincipal_proven (authorization : Option String) :
    (P.bearerPrincipal authorization).Yields fun o evs =>
      ∀ p, o = .ok p → ∃ link, presentedBearer authorization = some link ∧ P.Proven link evs p.userId := by
  unfold Portal.bearerPrincipal
  cases presentedBearer authorization with
  | none =>
    intro o ho p hp
    cases ho
    cases hp
  | some link =>
    refine Prog.Yields.bind ?_ (verifyBearer_proven link).attempt fun r evs hr => ?_
    · intro o evs evs' hsub h p hp
      obtain ⟨presented, hpresented, hproven⟩ := h p hp
      exact ⟨presented, hpresented, hproven.later hsub⟩
    · split
      · intro o ho p hp
        cases ho
        cases hp
        exact ⟨link, rfl, hr _ rfl⟩
      · intro o ho p hp
        cases ho
        cases hp
      · intro o ho p hp
        cases ho
        cases hp
      · intro o ho
        cases ho

end

/-! ## The verbs -/

section
variable {P : Portal} {t : PortalCall} {past : Past} {user : Uuid} {α : Type}

theorem mintBearer_heeds (ttl : Int) (hu : (∃ ttl, t = .request (.mintBearer user ttl)) ∨ Vouched past user) :
    Mediated P t past (P.mintBearer user ttl) := by
  refine mediated_after (all_ofExcept _) fun _ past₀ h₀ => ?_
  refine heeds_step trivial fun id => heeds_step trivial fun nonce => heeds_step trivial fun now => ?_
  refine mediated_after all_lifetime fun expires past₁ h₁ => heeds_query ?_ fun _ => ?_
  · exact hu.imp_right fun h => h.later fun ev hev => h₁ (by simp [h₀ hev])
  · exact mediated_after audit_harmless fun _ _ _ => heeds_harmless (all_ofExcept _)

theorem succeedLogin_heeds {email : String} (idKey ipKey event : String) (hyes : Accepted past email)
    (hu : Vouched past user) : Mediated P t past (P.succeedLogin user idKey ipKey event) := by
  refine heeds_step ⟨email, hyes⟩ fun _ => heeds_step ⟨email, hyes.later (List.subset_append_left _ _)⟩ fun _ =>
    heeds_step (hu.later fun ev hev => by simp [hev]) fun _ => ?_
  refine Prog.Heeds.bind (mintBearer_heeds _ (.inr (hu.later fun ev hev => by simp [hev]))) fun bearer _ _ => ?_
  exact mediated_after audit_harmless fun _ _ _ => trivial

theorem verifyAndMint_heeds {email presented : String} (ip event : String)
    (ht : ∃ raw, t.password = some (raw, presented) ∧ email = P.normalizeEmail raw) :
    Mediated P t past (P.verifyAndMint email presented ip event) := by
  refine heeds_step trivial fun now => mediated_after (all_checkKey trivial) fun _ past₁ _ =>
    mediated_after (all_checkKey trivial) fun _ past₂ _ => heeds_query trivial fun found => ?_
  split
  · exact heeds_harmless (refuseLogin_harmless _ _ _ _)
  next id status =>
    split
    · exact heeds_harmless (refuseLogin_harmless _ _ _ _)
    next hactive =>
      refine heeds_step ht fun verdict => ?_
      split
      · exact succeedLogin_heeds _ _ _ (accepted_of_yes ..) (.found email (accepted_of_yes ..) status (by simp))
      · exact heeds_harmless (refuseLogin_harmless _ _ _ _)
      · trivial
      · exact heeds_harmless (audit_harmless.bind fun _ => trivial)

theorem login_heeds {raw presented : String} (ip : String) (ht : t.password = some (raw, presented)) :
    Mediated P t past (P.login raw presented ip) := by
  unfold Portal.login
  dsimp only
  split
  · trivial
  · exact verifyAndMint_heeds ip _ ⟨raw, ht, rfl⟩

/-- The principal of a signup is the row it inserted, or the row that won the race. -/
theorem createdPrincipal_heeds {email : String} {inserted : Option Uuid} {f : Uuid → Verb α}
    (hyes : Accepted past email)
    (hrow : ∀ id, inserted = some id → ∃ row, ⟨.sql (.insertSignup row email), .ok (some id)⟩ ∈ past)
    (hf : ∀ user past', past ⊆ past' → Vouched past' user → Mediated P t past' (f user)) :
    Mediated P t past ((Portal.createdPrincipal email inserted).bind f) := by
  cases inserted with
  | some id =>
    obtain ⟨row, hmem⟩ := hrow id rfl
    exact hf id past (List.Subset.refl past) (.inserted email hyes row hmem)
  | none =>
    show Mediated P t past (Prog.bind (Prog.bind (query (.liveUserByEmail email)) _) f)
    rw [Prog.bind_assoc]
    refine heeds_query trivial fun found => ?_
    cases found with
    | none => trivial
    | some live =>
      have hsub : past ⊆ past ++ [⟨.sql (.liveUserByEmail email), .ok (some live)⟩] := List.subset_append_left _ _
      exact hf live.1 _ hsub (.found email (hyes.later hsub) live.2 (by simp))

theorem createPrincipal_heeds {email : String} (hsign : t.signsUp = true) (hyes : Accepted past email)
    (hopen : ⟨.sql .policyEnabled, .ok true⟩ ∈ past) : Mediated P t past (P.createPrincipal email) := by
  refine heeds_step trivial fun id => heeds_query ⟨hsign, hyes.later ?_, ?_⟩ fun inserted =>
    createdPrincipal_heeds (hyes.later ?_) ?_ fun user past' _ hu => ?_
  · exact List.subset_append_left _ _
  · exact List.mem_append_left _ hopen
  · exact fun ev hev => by simp [hev]
  · intro u hu
    subst hu
    exact ⟨id, List.mem_append_right _ (List.mem_singleton.mpr rfl)⟩
  · refine mediated_after audit_harmless fun _ past'' h => ?_
    exact Prog.Heeds.bind (mintBearer_heeds _ (.inr (hu.later h))) fun _ _ _ => trivial

theorem signupFresh_heeds {email presented : String} (ip : String) (hsign : t.signsUp = true)
    (ht : ∃ raw, t.password = some (raw, presented) ∧ email = P.normalizeEmail raw)
    (hopen : ⟨.sql .policyEnabled, .ok true⟩ ∈ past) : Mediated P t past (P.signupFresh email presented ip) := by
  refine mediated_after (checkNow_harmless _) fun _ past₁ h₁ => ?_
  refine mediated_after (checkNow_harmless _) fun _ past₂ h₂ => heeds_step ht fun verdict => ?_
  split
  · exact createPrincipal_heeds hsign (accepted_of_yes ..) (List.mem_append_left _ (h₂ (h₁ hopen)))
  · exact heeds_harmless ((registerNow_harmless _).bind fun _ => (registerNow_harmless _).bind fun _ => trivial)
  · trivial
  · exact heeds_harmless (audit_harmless.bind fun _ => trivial)

theorem signupOpen_told : signupOpen.Yields fun allowed evs => allowed = true →
    (⟨.sql .policyEnabled, .ok true⟩ : Event portalSig) ∈ evs := by
  intro r
  cases r with
  | ok enabled =>
    intro allowed h htrue
    cases h
    subst htrue
    exact List.mem_singleton.mpr rfl
  | error e =>
    intro allowed h htrue
    cases h
    cases htrue

theorem signup_heeds {raw presented : String} (ip : String) (hsign : t.signsUp = true)
    (ht : t.password = some (raw, presented)) : Mediated P t past (P.signup raw presented ip) := by
  unfold Portal.signup
  dsimp only
  split
  · trivial
  refine (heeds_harmless signupOpen_harmless).bind_yields signupOpen_told fun allowed evs hopen => ?_
  cases allowed with
  | false => exact heeds_harmless (audit_harmless.bind fun _ => trivial)
  | true =>
    refine heeds_query trivial fun found => ?_
    split
    · split
      · trivial
      · exact verifyAndMint_heeds ip _ ⟨raw, ht, rfl⟩
    · refine signupFresh_heeds ip hsign ⟨raw, ht, rfl⟩ ?_
      exact List.mem_append_left _ (List.mem_append_right _ (hopen rfl))

theorem redeem_heeds {link presenting : String} (ht : t.invitation = some (link, presenting)) :
    Mediated P t past (P.redeem link presenting) := by
  unfold Portal.redeem
  dsimp only
  split
  · trivial
  next parts hparts =>
    refine heeds_query trivial fun found => ?_
    cases found with
    | none => trivial
    | some row =>
      dsimp only
      split
      · trivial
      next hagrees =>
        refine heeds_step trivial fun now => ?_
        split
        · trivial
        refine heeds_step trivial fun user => heeds_query ?_ fun settled => ?_
        · exact ⟨link, presenting, parts, row, ht, hparts, rfl, by simp, Bool.not_eq_false _ ▸ hagrees, rfl⟩
        cases settled with
        | false => trivial
        | true =>
          refine mediated_after audit_harmless fun _ past' h => ?_
          refine Prog.Heeds.bind (mintBearer_heeds _ (.inr ?_)) fun _ _ _ => trivial
          exact .redeemed parts.id row.recipientEmail (h (List.mem_append_right _ (List.mem_singleton.mpr rfl)))

theorem rotateBearer_heeds {link : String} (ttl : Int) (ht : t.rotated = some link) :
    Mediated P t past (P.rotateBearer link ttl) := by
  refine (heeds_harmless (verifyBearer_harmless link)).bind_yields (verifyBearer_proven link)
    fun principal evs hproven => ?_
  split
  · trivial
  next parts hparts =>
    refine heeds_step trivial fun id => heeds_step trivial fun nonce => heeds_step trivial fun now =>
      mediated_after all_lifetime fun expires past' h => heeds_query ?_ fun rotated => ?_
    · exact ⟨link, parts, ht, hparts, rfl, hproven.later fun ev hev => h (by simp [hev])⟩
    · split
      · trivial
      · exact heeds_harmless (audit_harmless.bind fun _ => all_ofExcept _)

theorem mintInvite_heeds {raw : String} {grantedBy : Option Uuid} {ttl : Int}
    (ht : t = .request (.mintInvite raw grantedBy ttl)) : Mediated P t past (P.mintInvite raw grantedBy ttl) := by
  unfold Portal.mintInvite
  dsimp only
  split
  · trivial
  refine heeds_step trivial fun id => heeds_step trivial fun nonce => heeds_step trivial fun now =>
    mediated_after all_lifetime fun expires _ _ => heeds_query ⟨raw, ttl, ht, rfl⟩ fun _ => ?_
  exact heeds_harmless (audit_harmless.bind fun _ => all_ofExcept _)

theorem revokeAllBearers_heeds {reason : String} (actor : String)
    (h : P.Entitled t past (.sql (.revokeUserTokens user reason))) :
    Mediated P t past (revokeAllBearers user reason actor) := by
  refine heeds_query h fun n => ?_
  split
  · exact heeds_harmless (audit_harmless.bind fun _ => trivial)
  · trivial

theorem revokeAccess_heeds {reason : String} (actor : String)
    (h : P.Entitled t past (.sql (.revokeUser user reason))) :
    Mediated P t past (revokeAccess user reason actor) := by
  refine heeds_query h fun revoked => ?_
  cases revoked with
  | none => trivial
  | some email =>
    refine Prog.Heeds.bind (revokeAllBearers_heeds actor (.inr ⟨email, by simp⟩)) fun _ past' hsub => ?_
    exact heeds_query (.inr ⟨user, hsub (by simp)⟩) fun _ => trivial

theorem lifecycleAudit_harmless {label action : String} {env : Envelope} {user : Option Uuid} {sapiens : Uuid} :
    (P.lifecycleAudit label action env user sapiens).All Act.Harmless := busQuery_all P trivial

theorem handle_heeds {env : Envelope} (ht : t = .request (.handle env)) : Mediated P t past (P.handle env) := by
  unfold Portal.handle
  split
  next hcreated =>
    unfold Portal.onCreated
    split
    · trivial
    next payload hread =>
      split
      · trivial
      next sapiens hparse =>
        refine heeds_busQuery ⟨env, ht, hcreated, payload, hread, hparse, rfl⟩ fun stamped => ?_
        split <;> exact heeds_harmless lifecycleAudit_harmless
  split
  next hgone =>
    unfold Portal.onUserGone
    split
    · trivial
    next payload hread =>
      split
      · trivial
      next sapiens hparse =>
        refine heeds_busQuery trivial fun linked => ?_
        cases linked with
        | none => trivial
        | some user =>
          have hends : env.Ends sapiens := ⟨hgone, payload, hread, hparse⟩
          refine Prog.Heeds.bind (Prog.Heeds.mapErr (revokeAccess_heeds "lifecycle" (.inr ?_)))
            fun revoked _ _ => ?_
          · exact ⟨env, sapiens, ht, hends, rfl, by simp⟩
          · split
            · trivial
            · exact heeds_harmless lifecycleAudit_harmless
  · trivial

/-! ## The surface and the routes -/

theorem view_heeds (h : P.SpeaksFor t past user) : Mediated P t past (view user) := by
  refine heeds_query h fun found => ?_
  split <;> trivial

theorem updateMyDetails_heeds {principal : PortalPrincipal} {patch : PortalDetailPatch}
    (h : P.SpeaksFor t past principal.userId) (ht : t.patch = some patch) :
    Mediated P t past (updateMyDetails principal patch) := by
  unfold updateMyDetails
  split
  · trivial
  next hempty =>
    cases hvalid : patch.validate with
    | error e => trivial
    | ok =>
      refine heeds_query ⟨h, patch, ht, Bool.not_eq_true _ ▸ hempty, hvalid, rfl⟩ fun n => ?_
      split
      · trivial
      · exact view_heeds (h.later (List.subset_append_left _ _))

theorem myAccessHistory_heeds {principal : PortalPrincipal} (limit : Int)
    (h : P.SpeaksFor t past principal.userId) : Mediated P t past (myAccessHistory principal limit) :=
  heeds_alone h

theorem authenticated_heeds {authorization : Option String} {handler : PortalPrincipal → Verb Response}
    (ht : t.bearer = presentedBearer authorization)
    (h : ∀ p past', P.SpeaksFor t past' p.userId → Mediated P t past' (handler p)) :
    Mediated P t past (P.authenticated authorization handler) := by
  have hbasic : (P.bearerPrincipal authorization).All Act.Harmless := by
    unfold Portal.bearerPrincipal
    split
    · trivial
    · refine (verifyBearer_harmless _).attempt.bind fun o => ?_
      split <;> trivial
  refine (heeds_harmless hbasic).bind_yields (bearerPrincipal_proven authorization)
    fun o evs hproven => ?_
  cases o with
  | error e => trivial
  | ok p =>
    obtain ⟨link, hlink, hp⟩ := hproven p rfl
    exact h p _ (.inr ⟨link, ht.trans hlink, hp.later (List.subset_append_right _ _)⟩)

theorem route_heeds {request : RouteRequest} (ht : t = .request (.route request)) :
    Mediated P t past (P.route request) := by
  subst ht
  cases request with
  | redeemInvite headers body =>
    refine heeds_extract fun b hb => heeds_answered (redeem_heeds ?_) fun e _ => ?_
    · rw [hb]
      rfl
    · cases e with
      | credentialRefused =>
        exact heeds_harmless <| (registerNow_harmless _).bind fun _ =>
          (registerNow_harmless _).bind fun _ => trivial
      | _ => trivial
  | login headers body =>
    refine heeds_extract fun b hb => heeds_answered (login_heeds _ ?_) fun _ _ => trivial
    rw [hb]
    rfl
  | signup headers body =>
    refine heeds_extract fun b hb => heeds_answered (signup_heeds _ rfl ?_) fun _ _ => trivial
    rw [hb]
    rfl
  | rotate headers body =>
    refine heeds_extract fun b hb => mediated_after (checkNow_harmless _).attempt fun o past' _ => ?_
    split
    · trivial
    · trivial
    · refine heeds_answered (rotateBearer_heeds _ ?_) fun e _ => ?_
      · rw [hb]
        rfl
      · cases e with
        | credentialRefused => exact heeds_harmless ((registerNow_harmless _).bind fun _ => trivial)
        | _ => trivial

theorem serve_heeds (request : Request) : Mediated P (.request request) past (P.serve request) := by
  cases request with
  | mintBearer user ttl => exact heeds_reply (mintBearer_heeds ttl (.inl ⟨ttl, rfl⟩))
  | verifyBearer link => exact heeds_reply (heeds_harmless (verifyBearer_harmless link))
  | rotateBearer link ttl => exact heeds_reply (rotateBearer_heeds ttl rfl)
  | revokeBearer token reason actor =>
    refine heeds_reply (heeds_query ⟨actor, rfl⟩ fun revoked => ?_)
    split
    · exact heeds_harmless audit_harmless
    · trivial
  | revokeAllBearers user reason actor => exact heeds_reply (revokeAllBearers_heeds actor (.inl ⟨actor, rfl⟩))
  | mintInvite email grantedBy ttl => exact heeds_reply (mintInvite_heeds rfl)
  | redeem link email => exact heeds_reply (redeem_heeds rfl)
  | revokeInvite invite reason actor =>
    refine heeds_reply (heeds_query ⟨actor, rfl⟩ fun n => ?_)
    split
    · trivial
    · exact heeds_harmless audit_harmless
  | revokePendingForEmail email reason actor =>
    refine heeds_reply (heeds_query (.inl ⟨email, actor, rfl, rfl⟩) fun n => ?_)
    split
    · exact heeds_harmless (audit_harmless.bind fun _ => trivial)
    · trivial
  | sweepExpired => exact heeds_reply (heeds_alone rfl)
  | setSignupPolicy enabled note officer =>
    exact heeds_reply (heeds_step trivial fun id => heeds_query rfl fun _ => heeds_harmless audit_harmless)
  | login email presented ip => exact heeds_reply (login_heeds ip rfl)
  | signup email presented ip => exact heeds_reply (signup_heeds ip rfl rfl)
  | revokeAccess user reason actor => exact heeds_reply (revokeAccess_heeds actor (.inl ⟨actor, rfl⟩))
  | myDetails principal => exact heeds_reply (view_heeds (.inl ⟨principal, rfl, rfl⟩))
  | updateMyDetails principal patch =>
    exact heeds_reply (updateMyDetails_heeds (.inl ⟨principal, rfl, rfl⟩) rfl)
  | myAccessHistory principal limit =>
    exact heeds_reply (myAccessHistory_heeds limit (.inl ⟨principal, rfl, rfl⟩))
  | handle env => exact heeds_reply (handle_heeds rfl)
  | route request => exact heeds_reply (route_heeds rfl)

theorem customer_heeds (call : CustomerCall) : Mediated P (.customer call) past (call.verb P) := by
  cases call with
  | surface principal call =>
    have h : ∀ past, P.SpeaksFor (.customer (.surface principal call)) past principal.userId :=
      fun _ => .inl ⟨principal, rfl, rfl⟩
    cases call with
    | myDetails => exact heeds_reply (view_heeds (h _))
    | updateMyDetails patch => exact heeds_reply (updateMyDetails_heeds (h _) rfl)
    | myAccessHistory limit => exact heeds_reply (myAccessHistory_heeds limit (h _))
  | me authorization =>
    refine heeds_reply (authenticated_heeds rfl fun p past' h => ?_)
    exact heeds_answered (view_heeds h) fun _ _ => trivial
  | updateMe authorization body =>
    refine heeds_reply (heeds_extract fun b hb => authenticated_heeds rfl fun p past' h => ?_)
    split
    · trivial
    next patch hpatch =>
      refine heeds_answered (updateMyDetails_heeds h ?_) fun _ _ => trivial
      rw [hb]
      exact hpatch
  | accessHistory authorization =>
    refine heeds_reply (authenticated_heeds rfl fun p past' h => ?_)
    exact heeds_answered (myAccessHistory_heeds 50 h) fun _ _ => trivial

theorem verb_heeds (P : Portal) (t : PortalCall) : (t.verb P).Heeds (P.Entitled t) [] := by
  cases t with
  | request request => exact serve_heeds request
  | customer call => exact customer_heeds call
  | mintRecipient user email =>
    refine heeds_reply (mediated_after (all_ofExcept _) fun _ _ _ => heeds_step trivial fun now =>
      mediated_after all_lifetime fun _ _ _ => ?_)
    exact heeds_harmless (audit_harmless.bind fun _ => trivial)

end

/-- **Complete mediation.** In every run, whatever is interleaved, no call
performs a privileged action it was not entitled to by what it presented and
what it had been told before. -/
theorem complete_mediation (P : Portal) (pool : PortalPool) (hcalls : pool.calls = []) (ms : List PortalMove) :
    ∀ c ∈ (pool.play (PortalCall.verb P) ms).calls, ∀ before ev after, c.past = before ++ ev :: after →
      P.Entitled c.tag before ev.act :=
  Pool.play_heeds (PortalCall.verb P) (verb_heeds P) hcalls ms

namespace Probe

/-- A login, up to the reset of its first counter. -/
def signedIn : List PortalMove := .start (.request (.login email "open sesame" "::1")) :: List.replicate 6 (.step 0 env)

def clears (ev : Event portalSig) : Bool :=
  match ev.act with
  | .reset _ => true
  | _ => false

theorem clears_act {ev : Event portalSig} (h : clears ev = true) : ∃ key, ev.act = .reset key := by
  unfold clears at h
  split at h
  next key hact => exact ⟨key, hact⟩
  next => cases h

end Probe

theorem complete_mediation_probe :
    ∃ c ∈ ((Probe.stage Probe.enrolled).play (PortalCall.verb Probe.portal) Probe.signedIn).calls,
      ∃ before ev after, c.past = before ++ ev :: after ∧ (∃ key, ev.act = .reset key) ∧
        ∃ email, Accepted before email := by
  have hclears : ((Probe.stage Probe.enrolled).play (PortalCall.verb Probe.portal) Probe.signedIn).calls.any
      (fun c => c.past.any Probe.clears) = true := by decide +kernel
  obtain ⟨c, hc, hpast⟩ := List.any_eq_true.mp hclears
  obtain ⟨ev, hev, hclear⟩ := List.any_eq_true.mp hpast
  obtain ⟨before, after, hsplit⟩ := List.append_of_mem hev
  obtain ⟨key, hact⟩ := Probe.clears_act hclear
  have h := complete_mediation Probe.portal (Probe.stage Probe.enrolled) rfl Probe.signedIn c hc before ev after
    hsplit
  rw [hact] at h
  exact ⟨c, hc, before, ev, after, hsplit, ⟨key, hact⟩, h⟩

end BackbonePortal
