import BackbonePortal.Histories
import BackbonePortal.Mediation
import BackbonePortal.Trail

/-!
# What the trail testifies

A call writes a row only about what it was told: the row of a mint after the
row was inserted, of a rotation after the predecessor was spent, of a refused
login after the verifier said no. The trail of a run is the first trail and
then such rows, in the order they were written.
-/

namespace BackbonePortal

open Proc

/-! ## Evidence -/

/-- Who the rows of a revoking call name. -/
def PortalCall.actor : PortalCall → Option String
  | .request (.revokeBearer _ _ actor) | .request (.revokeAllBearers _ _ actor)
  | .request (.revokeInvite _ _ actor) | .request (.revokePendingForEmail _ _ actor)
  | .request (.revokeAccess _ _ actor) => some actor
  | .request (.handle _) => some "lifecycle"
  | _ => none

/-- The row of the lifecycle handler. -/
def lifecycleRow (action : String) (env : Envelope) (user : Option Uuid) (sapiens : Uuid) : AuditEvent :=
  recordAudit action (some ("lifecycle:" ++ env.eventType)) user none none
    (.object [("envelope_id", .str env.id), ("sapiens_user_id", .str sapiens.display)])

/-- A row a call may write after what it was told: one case a place that writes. -/
inductive Portal.Testified (P : Portal) (t : PortalCall) (past : Past) : AuditEvent → Prop where
  | bearerMinted {id user : Uuid} {nonce : String} {expires : Instant}
    (inserted : ⟨.sql (.insertToken id user nonce expires), .ok ()⟩ ∈ past) :
    Testified P t past (recordAudit "bearer_minted" (some "system") (some user) none (some id)
      (.object [("expires_at", .str expires.toRfc3339)]))
  | bearerRotated {id successor user : Uuid} {nonce : String} {expires : Instant}
    (replaced : ⟨.sql (.rotateToken id successor user nonce expires), .ok true⟩ ∈ past) :
    Testified P t past (recordAudit "bearer_rotated" (some "recipient") (some user) none (some id)
      (.object [("successor", .str successor.display), ("expires_at", .str expires.toRfc3339)]))
  | bearerRevoked {id user : Uuid} {reason actor : String} (signed : t.actor = some actor)
    (revoked : ⟨.sql (.revokeToken id reason), .ok (some user)⟩ ∈ past) :
    Testified P t past (recordAudit "bearer_revoked" (some actor) (some user) none (some id)
      (.object [("reason", .str reason)]))
  | bearersRevoked {user : Uuid} {reason actor : String} {n : Nat} (signed : t.actor = some actor)
    (revoked : ⟨.sql (.revokeUserTokens user reason), .ok n⟩ ∈ past) (positive : 0 < n) :
    Testified P t past (recordAudit "bearer_revoked" (some actor) (some user) none none
      (.object [("reason", .str reason), ("revoked_count", .num n)]))
  | inviteMinted {id : Uuid} {email nonce : String} {expires : Instant} {grantedBy : Option Uuid}
    (inserted : ⟨.sql (.insertInvite id email nonce expires grantedBy), .ok ()⟩ ∈ past) :
    Testified P t past (recordAudit "invite_minted" (some ((grantedBy.map Uuid.display).getD "system")) none
      (some id) none (.object [("recipient_email", .str email), ("expires_at", .str expires.toRfc3339)]))
  | inviteRedeemed {id user : Uuid} {email : String}
    (redeemed : ⟨.sql (.redeemInvite id user email), .ok true⟩ ∈ past) :
    Testified P t past (recordAudit "invite_redeemed" (some "recipient") (some user) (some id) none
      (.object [("email", .str email)]))
  | inviteRevoked {id : Uuid} {reason actor : String} (signed : t.actor = some actor)
    (revoked : ⟨.sql (.revokeInvite id reason), .ok 1⟩ ∈ past) :
    Testified P t past (recordAudit "invite_revoked" (some actor) none (some id) none
      (.object [("reason", .str reason)]))
  | invitesRevoked {email reason actor : String} {n : Nat} (signed : t.actor = some actor)
    (revoked : ⟨.sql (.revokePending email reason), .ok n⟩ ∈ past) (positive : 0 < n) :
    Testified P t past (recordAudit "invite_revoked" (some actor) none none none
      (.object [("reason", .str reason), ("email", .str email), ("revoked_count", .num n)]))
  | policyChanged {id : Uuid} {enabled : Bool} {note : Option String} {officer : Option Uuid}
    (replaced : ⟨.sql (.replacePolicy id enabled note officer), .ok ()⟩ ∈ past) :
    Testified P t past (recordAudit "policy_changed" (some ((officer.map Uuid.display).getD "system")) none none
      none (.object [("enabled", .bool enabled), ("note", Json.option .str note)]))
  | loginSucceeded {user : Uuid} {email : String} (yes : Accepted past email)
    (row : ⟨.sql (.liveUserByEmail email), .ok (some (user, .active))⟩ ∈ past) :
    Testified P t past (recordAudit "login_succeeded" (some "recipient") (some user) none none (.object []))
  | loginUnknown {email : String} (row : ⟨.sql (.liveUserByEmail email), .ok none⟩ ∈ past) :
    Testified P t past (recordAudit "login_refused" (some "anonymous") none none none
      (.object [("email_domain", Json.option .str (splitAt '@' email)[1]?)]))
  | loginBarred {user : Uuid} {email : String} {status : PortalUserStatus}
    (row : ⟨.sql (.liveUserByEmail email), .ok (some (user, status))⟩ ∈ past) (barred : status ≠ .active) :
    Testified P t past (recordAudit "login_refused" (some "anonymous") (some user) none none (.object []))
  | loginRefused {user : Uuid} {email presented : String}
    (row : ⟨.sql (.liveUserByEmail email), .ok (some (user, .active))⟩ ∈ past)
    (no : ⟨.verify email presented, some (.ok false)⟩ ∈ past) :
    Testified P t past (recordAudit "login_refused" (some "anonymous") (some user) none none (.object []))
  | loginUnwired {user : Uuid} {email presented : String}
    (row : ⟨.sql (.liveUserByEmail email), .ok (some (user, .active))⟩ ∈ past)
    (unwired : ⟨.verify email presented, none⟩ ∈ past) :
    Testified P t past (recordAudit "credential_port_not_composed" (some "system") (some user) none none
      (.object [("verb", .str "login")]))
  | signupUnwired {email presented : String} (signup : t.signsUp = true)
    (unwired : ⟨.verify email presented, none⟩ ∈ past) :
    Testified P t past (recordAudit "credential_port_not_composed" (some "system") none none none
      (.object [("verb", .str "signup")]))
  | signupCreated {row user : Uuid} {email : String} (signup : t.signsUp = true) (yes : Accepted past email)
    (created : ⟨.sql (.insertSignup row email), .ok (some user)⟩ ∈ past ∨
      (⟨.sql (.insertSignup row email), .ok none⟩ ∈ past ∧
        ∃ status, ⟨.sql (.liveUserByEmail email), .ok (some (user, status))⟩ ∈ past)) :
    Testified P t past (recordAudit "signup_created" (some "recipient") (some user) none none (.object []))
  | signupClosed {answer : Except SqlError Bool} (signup : t.signsUp = true)
    (policy : ⟨.sql .policyEnabled, answer⟩ ∈ past) (closed : answer ≠ .ok true) :
    Testified P t past (recordAudit "signup_refused_policy_closed" (some "anonymous") none none none (.object []))
  | onboardingLinked {env : Envelope} {sapiens user : Uuid} {email : String} (handled : t = .request (.handle env))
    (creates : env.Creates P email sapiens)
    (stamped : ⟨.sql (.stampSapiens sapiens email), .ok (some user)⟩ ∈ past) :
    Testified P t past (lifecycleRow "onboarding_linked" env (some user) sapiens)
  | onboardingUninvited {env : Envelope} {sapiens : Uuid} {email : String} (handled : t = .request (.handle env))
    (creates : env.Creates P email sapiens)
    (unstamped : ⟨.sql (.stampSapiens sapiens email), .ok none⟩ ∈ past) :
    Testified P t past (lifecycleRow "onboarding_no_invitation" env none sapiens)
  | accessRevoked {env : Envelope} {sapiens user : Uuid} {email : String} (handled : t = .request (.handle env))
    (ends : env.Ends sapiens) (linked : ⟨.sql (.principalByLink sapiens), .ok (some user)⟩ ∈ past)
    (revoked : ⟨.sql (.revokeUser user ("lifecycle:" ++ env.eventType)), .ok (some email)⟩ ∈ past) :
    Testified P t past (lifecycleRow "lifecycle_access_revoked" env (some user) sapiens)
  | recipientMinted {user : Uuid} {email : String} {now : Instant} (asked : t = .mintRecipient user email)
    (clock : ⟨.now, now⟩ ∈ past) :
    Testified P t past (recordAudit "recipient_hmac_minted" (some "system") (some user) none none
      (.object [("expires_at", .num (now + seconds (recipientHmacTtlDays * 86400)).timestamp)]))

def Portal.Testifies (P : Portal) (t : PortalCall) (past : Past) : Act → Prop
  | .sql (.appendAudit event) => P.Testified t past event
  | _ => True

/-- An action that writes no row. -/
def Act.Unrecorded : Act → Prop
  | .sql (.appendAudit _) => False
  | _ => True

theorem unrecorded_testifies {P : Portal} {t : PortalCall} (past : Past) (a : Act) (h : a.Unrecorded) :
    P.Testifies t past a := by
  cases a with
  | sql q =>
    cases q with
    | appendAudit event => exact h.elim
    | _ => trivial
  | _ => trivial

abbrev Testifying {α : Type} (P : Portal) (t : PortalCall) (past : Past) (p : Verb α) : Prop :=
  p.Heeds (P.Testifies t) past

/-! ## The verbs -/

section
variable {P : Portal} {t : PortalCall} {past : Past} {user : Uuid} {α : Type}

theorem testifying_after {β : Type} {p : Verb α} {f : α → Verb β} (hp : p.All Act.Unrecorded)
    (hf : ∀ a past', past ⊆ past' → Testifying P t past' (f a)) : Testifying P t past (p.bind f) :=
  heeds_after unrecorded_testifies hp hf

theorem testifying_silent {p : Verb α} (hp : p.All Act.Unrecorded) : Testifying P t past p :=
  Prog.heeds_of_all unrecorded_testifies hp past

theorem registerNow_unrecorded (key : String) : (registerNow key).All Act.Unrecorded :=
  ⟨trivial, fun _ => ⟨trivial, fun _ => trivial⟩⟩

theorem checkNow_unrecorded (key : String) : (checkNow key).All Act.Unrecorded :=
  ⟨trivial, fun _ => all_checkKey trivial⟩

theorem verifyBearer_unrecorded (link : String) : (P.verifyBearer link).All Act.Unrecorded :=
  verifyBearer_all P (fun a h => by
    cases a with
    | sql q => cases q <;> first | exact h.elim | trivial
    | now => trivial
    | _ => exact h.elim) link

theorem view_unrecorded (user : Uuid) : (view user).All Act.Unrecorded := by
  refine .bind (all_query trivial) fun found => ?_
  split <;> trivial

theorem updateMyDetails_unrecorded (principal : PortalPrincipal) (patch : PortalDetailPatch) :
    (updateMyDetails principal patch).All Act.Unrecorded := by
  unfold updateMyDetails
  split
  · trivial
  refine .bind (all_ofExcept _) fun _ => .bind (all_query trivial) fun n => ?_
  split
  · trivial
  · exact view_unrecorded _

theorem mintBearer_testifies (ttl : Int) : Testifying P t past (P.mintBearer user ttl) := by
  refine testifying_after (all_ofExcept _) fun _ _ _ => ?_
  refine heeds_step trivial fun id => heeds_step trivial fun nonce => heeds_step trivial fun now => ?_
  refine testifying_after all_lifetime fun expires _ _ => heeds_query trivial fun _ => ?_
  exact heeds_query (.bearerMinted List.mem_concat_self) fun _ => testifying_silent (all_ofExcept _)

theorem rotateBearer_testifies (link : String) (ttl : Int) : Testifying P t past (P.rotateBearer link ttl) := by
  refine testifying_after (verifyBearer_unrecorded link) fun principal _ _ => ?_
  split
  · trivial
  refine heeds_step trivial fun id => heeds_step trivial fun nonce => heeds_step trivial fun now =>
    testifying_after all_lifetime fun expires _ _ => heeds_query trivial fun rotated => ?_
  cases rotated with
  | false => trivial
  | true => exact heeds_query (.bearerRotated List.mem_concat_self) fun _ => testifying_silent (all_ofExcept _)

theorem revokeAllBearers_testifies {reason actor : String} (ht : t.actor = some actor) :
    Testifying P t past (revokeAllBearers user reason actor) := by
  refine heeds_query trivial fun n => ?_
  split
  next hn => exact heeds_query (.bearersRevoked ht List.mem_concat_self hn) fun _ => trivial
  · trivial

theorem mintInvite_testifies (email : String) (grantedBy : Option Uuid) (ttl : Int) :
    Testifying P t past (P.mintInvite email grantedBy ttl) := by
  unfold Portal.mintInvite
  dsimp only
  split
  · trivial
  refine heeds_step trivial fun id => heeds_step trivial fun nonce => heeds_step trivial fun now =>
    testifying_after all_lifetime fun expires _ _ => heeds_query trivial fun _ => ?_
  exact heeds_query (.inviteMinted List.mem_concat_self) fun _ => testifying_silent (all_ofExcept _)

theorem redeem_testifies (link email : String) : Testifying P t past (P.redeem link email) := by
  unfold Portal.redeem
  dsimp only
  split
  · trivial
  refine heeds_query trivial fun found => ?_
  split
  · trivial
  split
  · trivial
  refine heeds_step trivial fun now => ?_
  split
  · trivial
  refine heeds_step trivial fun user => heeds_query trivial fun settled => ?_
  cases settled with
  | false => trivial
  | true =>
    refine heeds_query (.inviteRedeemed List.mem_concat_self) fun _ => ?_
    exact Prog.Heeds.bind (mintBearer_testifies _) fun _ _ _ => trivial

theorem refuseLogin_testifies {owner : Option Uuid} {idKey ipKey : String} {detail : Json}
    (h : ∀ past', past ⊆ past' → P.Testified t past'
      (recordAudit "login_refused" (some "anonymous") owner none none detail)) :
    Testifying P t past (Portal.refuseLogin owner idKey ipKey detail : Verb α) := by
  refine testifying_after (registerNow_unrecorded _) fun _ past₁ h₁ =>
    testifying_after (registerNow_unrecorded _) fun _ past₂ h₂ => heeds_query (h _ fun ev hev => h₂ (h₁ hev)) ?_
  exact fun _ => trivial

theorem verifyAndMint_testifies (email presented ip : String) :
    Testifying P t past (P.verifyAndMint email presented ip "login_succeeded") := by
  refine heeds_step trivial fun now => testifying_after (all_checkKey trivial) fun _ _ _ =>
    testifying_after (all_checkKey trivial) fun _ _ _ => heeds_query trivial fun found => ?_
  split
  · exact refuseLogin_testifies fun past' h =>
      @Portal.Testified.loginUnknown P t past' email (h List.mem_concat_self)
  next id status =>
    split
    next hbarred => exact refuseLogin_testifies fun past' h => .loginBarred (h List.mem_concat_self) hbarred
    next hactive =>
      obtain rfl : status = .active := of_not_not hactive
      refine heeds_step trivial fun verdict => ?_
      split
      · refine heeds_step trivial fun _ => heeds_step trivial fun _ => heeds_step trivial fun _ => ?_
        refine Prog.Heeds.bind (mintBearer_testifies _) fun bearer past' h => heeds_query ?_ fun _ => trivial
        have hyes : Accepted past' email := ⟨presented, h (by simp)⟩
        exact .loginSucceeded hyes (h (by simp))
      · exact refuseLogin_testifies fun past' h => .loginRefused (h (by simp)) (h List.mem_concat_self)
      · trivial
      · exact heeds_query (.loginUnwired (by simp) List.mem_concat_self) fun _ => trivial

theorem login_testifies (email presented ip : String) : Testifying P t past (P.login email presented ip) := by
  unfold Portal.login
  dsimp only
  split
  · trivial
  · exact verifyAndMint_testifies _ _ _

theorem createPrincipal_testifies {email : String} (ht : t.signsUp = true) (hyes : Accepted past email) :
    Testifying P t past (P.createPrincipal email) := by
  -- the row and the first bearer, once the principal is known
  have hrest : ∀ (user : Uuid) (past' : Past), past ⊆ past' →
      (∃ row, ⟨.sql (.insertSignup row email), .ok (some user)⟩ ∈ past' ∨
        (⟨.sql (.insertSignup row email), .ok none⟩ ∈ past' ∧
          ∃ status, ⟨.sql (.liveUserByEmail email), .ok (some (user, status))⟩ ∈ past')) →
      Testifying P t past' ((audit "signup_created" (some user) none none "recipient" (.object [])).bind fun _ =>
        (P.mintBearer user defaultBearerTtlHours).bind fun bearer => .ret (user, bearer)) := by
    rintro user past' h ⟨row, hcreated⟩
    refine heeds_query (.signupCreated ht (hyes.later h) hcreated) fun _ => ?_
    exact Prog.Heeds.bind (mintBearer_testifies _) fun _ _ _ => trivial
  refine heeds_step trivial fun id => heeds_query trivial fun inserted => ?_
  cases inserted with
  | some user => exact hrest user _ (fun ev hev => by simp [hev]) ⟨id, .inl List.mem_concat_self⟩
  | none =>
    show Prog.Heeds _ _ (Prog.bind (Prog.bind (query (.liveUserByEmail email)) _) _)
    rw [Prog.bind_assoc]
    refine heeds_query trivial fun found => ?_
    cases found with
    | none => trivial
    | some live =>
      exact hrest live.1 _ (fun ev hev => by simp [hev]) ⟨id, .inr ⟨by simp, live.2, List.mem_concat_self⟩⟩

theorem signupFresh_testifies {email presented : String} (ip : String) (ht : t.signsUp = true) :
    Testifying P t past (P.signupFresh email presented ip) := by
  refine testifying_after (checkNow_unrecorded _) fun _ _ _ => testifying_after (checkNow_unrecorded _)
    fun _ _ _ => heeds_step trivial fun verdict => ?_
  split
  · exact createPrincipal_testifies ht (accepted_of_yes ..)
  · exact testifying_silent
      ((registerNow_unrecorded _).bind fun _ => (registerNow_unrecorded _).bind fun _ => trivial)
  · trivial
  · exact heeds_query (.signupUnwired ht List.mem_concat_self) fun _ => trivial

theorem signup_testifies (email presented ip : String) (ht : t.signsUp = true) :
    Testifying P t past (P.signup email presented ip) := by
  unfold Portal.signup
  dsimp only
  split
  · trivial
  show Prog.Heeds _ _ (Prog.bind (Prog.bind (trySql .policyEnabled) _) _)
  rw [Prog.bind_assoc]
  refine heeds_step trivial fun answer => ?_
  have hclosed : answer ≠ .ok true →
      Testifying P t (past ++ [⟨.sql .policyEnabled, answer⟩])
        ((audit "signup_refused_policy_closed" none none none "anonymous" (.object [])).bind fun _ =>
          (refuse .signupClosed : Verb (Uuid × String))) := fun h =>
    heeds_query (.signupClosed ht List.mem_concat_self h) fun _ => trivial
  cases answer with
  | error e => exact hclosed (by simp)
  | ok enabled =>
    cases enabled with
    | false => exact hclosed (by simp)
    | true =>
      refine heeds_query trivial fun found => ?_
      split
      · split
        · trivial
        · exact verifyAndMint_testifies _ _ _
      · exact signupFresh_testifies _ ht

theorem revokeAccess_testifies {reason actor : String} (ht : t.actor = some actor) :
    Testifying P t past (revokeAccess user reason actor) := by
  refine heeds_query trivial fun revoked => ?_
  cases revoked with
  | none => trivial
  | some email =>
    refine Prog.Heeds.bind (revokeAllBearers_testifies ht) fun _ _ _ => ?_
    exact heeds_query trivial fun _ => trivial

theorem revokeAccess_flips {reason actor : String} :
    (revokeAccess user reason actor).Yields fun flipped evs => flipped = true →
      ∃ email, (⟨.sql (.revokeUser user reason), .ok (some email)⟩ : Event portalSig) ∈ evs := by
  refine yields_query fun revoked => ?_
  cases revoked with
  | none =>
    intro flipped h htrue
    cases h
    cases htrue
  | some email => exact Prog.paths_of_forall (fun _ _ _ _ _ => ⟨email, List.mem_cons_self⟩) _

theorem handle_testifies {env : Envelope} (ht : t = .request (.handle env)) : Testifying P t past (P.handle env) := by
  unfold Portal.handle
  split
  next hcreated =>
    unfold Portal.onCreated
    split
    · trivial
    next payload hread =>
      split
      · trivial
      next sapiens hparse =>
        have hcreates : env.Creates P (P.normalizeEmail payload.email) sapiens :=
          ⟨hcreated, payload, hread, hparse, rfl⟩
        refine heeds_busQuery trivial fun stamped => ?_
        cases stamped with
        | some user => exact heeds_busAlone (.onboardingLinked ht hcreates List.mem_concat_self)
        | none => exact heeds_busAlone (.onboardingUninvited ht hcreates List.mem_concat_self)
  split
  next hgone =>
    unfold Portal.onUserGone
    split
    · trivial
    next payload hread =>
      split
      · trivial
      next sapiens hparse =>
        refine heeds_busQuery trivial fun linked => ?_
        cases linked with
        | none => trivial
        | some user =>
          have hrevokes : Testifying P t (past ++ [⟨.sql (.principalByLink sapiens), .ok (some user)⟩])
              (revokeAccess user ("lifecycle:" ++ env.eventType) "lifecycle") :=
            revokeAccess_testifies (by rw [ht]; rfl)
          refine Prog.Heeds.bind_yields hrevokes.mapErr revokeAccess_flips.mapErr fun flipped evs hflip => ?_
          cases flipped with
          | false => trivial
          | true =>
            obtain ⟨email, hrevoked⟩ := hflip rfl
            exact heeds_busAlone (.accessRevoked ht ⟨hgone, payload, hread, hparse⟩ (by simp)
              (List.mem_append_right _ hrevoked))
  · trivial

theorem route_testifies {request : RouteRequest} (ht : t = .request (.route request)) :
    Testifying P t past (P.route request) := by
  subst ht
  cases request with
  | redeemInvite headers body =>
    refine heeds_extract fun b _ => heeds_answered (redeem_testifies _ _) fun e _ => testifying_silent ?_
    cases e with
    | credentialRefused =>
      exact (registerNow_unrecorded _).bind fun _ => (registerNow_unrecorded _).bind fun _ => trivial
    | _ => trivial
  | login headers body =>
    exact heeds_extract fun b _ => heeds_answered (login_testifies _ _ _) fun _ _ => trivial
  | signup headers body =>
    exact heeds_extract fun b _ => heeds_answered (signup_testifies _ _ _ rfl) fun _ _ => trivial
  | rotate headers body =>
    refine heeds_extract fun b _ => testifying_after (checkNow_unrecorded _).attempt fun o _ _ => ?_
    split
    · trivial
    · trivial
    · refine heeds_answered (rotateBearer_testifies _ _) fun e _ => testifying_silent ?_
      cases e with
      | credentialRefused => exact (registerNow_unrecorded _).bind fun _ => trivial
      | _ => trivial

theorem serve_testifies (request : Request) : Testifying P (.request request) past (P.serve request) := by
  cases request with
  | mintBearer user ttl => exact heeds_reply (mintBearer_testifies ttl)
  | verifyBearer link => exact heeds_reply (testifying_silent (verifyBearer_unrecorded link))
  | rotateBearer link ttl => exact heeds_reply (rotateBearer_testifies link ttl)
  | revokeBearer token reason actor =>
    refine heeds_reply (heeds_query trivial fun revoked => ?_)
    cases revoked with
    | none => trivial
    | some user => exact heeds_alone (.bearerRevoked rfl List.mem_concat_self)
  | revokeAllBearers user reason actor => exact heeds_reply (revokeAllBearers_testifies rfl)
  | mintInvite email grantedBy ttl => exact heeds_reply (mintInvite_testifies email grantedBy ttl)
  | redeem link email => exact heeds_reply (redeem_testifies link email)
  | revokeInvite invite reason actor =>
    refine heeds_reply (heeds_query trivial fun n => ?_)
    split
    · trivial
    next hn =>
      obtain rfl : n = 1 := of_not_not hn
      exact heeds_alone (.inviteRevoked rfl List.mem_concat_self)
  | revokePendingForEmail email reason actor =>
    refine heeds_reply (heeds_query trivial fun n => ?_)
    split
    next hn => exact heeds_query (.invitesRevoked rfl List.mem_concat_self hn) fun _ => trivial
    · trivial
  | sweepExpired => exact heeds_reply (heeds_alone trivial)
  | setSignupPolicy enabled note officer =>
    refine heeds_reply (heeds_step trivial fun id => heeds_query trivial fun _ => ?_)
    exact heeds_alone (.policyChanged List.mem_concat_self)
  | login email presented ip => exact heeds_reply (login_testifies email presented ip)
  | signup email presented ip => exact heeds_reply (signup_testifies email presented ip rfl)
  | revokeAccess user reason actor => exact heeds_reply (revokeAccess_testifies rfl)
  | myDetails principal => exact heeds_reply (testifying_silent (view_unrecorded _))
  | updateMyDetails principal patch => exact heeds_reply (testifying_silent (updateMyDetails_unrecorded _ _))
  | myAccessHistory principal limit => exact heeds_reply (heeds_alone trivial)
  | handle env => exact heeds_reply (handle_testifies rfl)
  | route request => exact heeds_reply (route_testifies rfl)

theorem authenticated_unrecorded {authorization : Option String} {handler : PortalPrincipal → Verb Response}
    (h : ∀ p, (handler p).All Act.Unrecorded) : (P.authenticated authorization handler).All Act.Unrecorded := by
  refine Prog.All.bind ?_ fun o => ?_
  · unfold Portal.bearerPrincipal
    split
    · trivial
    · refine .bind (verifyBearer_unrecorded _).attempt fun o => ?_
      split <;> trivial
  · split
    · exact h _
    · trivial

theorem customer_unrecorded (call : CustomerCall) : (call.verb P).All Act.Unrecorded := by
  cases call with
  | surface principal call =>
    cases call with
    | myDetails => exact .bind (view_unrecorded _) fun _ => trivial
    | updateMyDetails patch => exact .bind (updateMyDetails_unrecorded _ _) fun _ => trivial
    | myAccessHistory limit => exact .bind (all_query trivial) fun _ => trivial
  | me authorization =>
    refine .bind (authenticated_unrecorded fun p => ?_) fun _ => trivial
    exact all_answered (view_unrecorded _) fun _ => trivial
  | updateMe authorization body =>
    refine .bind (extract_all fun b => authenticated_unrecorded fun p => ?_) fun _ => trivial
    split
    · trivial
    · exact all_answered (updateMyDetails_unrecorded _ _) fun _ => trivial
  | accessHistory authorization =>
    refine .bind (authenticated_unrecorded fun p => ?_) fun _ => trivial
    exact all_answered (all_query trivial) fun _ => trivial

theorem verb_testifies (P : Portal) (t : PortalCall) : (t.verb P).Heeds (P.Testifies t) [] := by
  cases t with
  | request request => exact serve_testifies request
  | customer call => exact testifying_silent (customer_unrecorded call)
  | mintRecipient user email =>
    refine heeds_reply (testifying_after (all_ofExcept _) fun _ _ _ => heeds_step trivial fun now => ?_)
    show Prog.Heeds _ _ (Prog.bind (lifetime "days" 86400 recipientHmacTtlDays now) _)
    rcases lifetime_eq "days" 86400 recipientHmacTtlDays now with ⟨-, hlife⟩ | ⟨-, m, hlife⟩
    · rw [hlife]
      exact heeds_query (.recipientMinted rfl List.mem_concat_self) fun _ => trivial
    · rw [hlife]
      trivial

end

/-! ## The trail of a run -/

/-- A ledger: rows are added at its end. -/
def ledger : Model (List AuditTrail) AuditTrail where
  allows _ _ := True
  effect rows row := rows ++ [row]

theorem ledger_replay (rows added : List AuditTrail) : ledger.replay rows added = rows ++ added := by
  induction added generalizing rows with
  | nil => exact (List.append_nil rows).symm
  | cons row added ih => exact (ih _).trans (List.append_assoc rows [row] added)

def Writes (ev : Event portalSig) (row : AuditTrail) : Prop := ev = ⟨.sql (.appendAudit row.event), .ok ()⟩

theorem trail_is_ledger :
    portalMachine.Refines (fun _ _ => True) (fun _ => True) ledger (fun w => w.db.trail) Writes where
  keeps _ _ _ _ _ := trivial
  step a i w _ _ := by
    rcases exec_trail a i w with ⟨event, rfl, hfault, htrail⟩ | htrail
    · refine .inr ⟨⟨event, i.now.stored⟩, ?_, trivial, htrail⟩
      simp only [Writes, Act.exec, appendAudit_answer hfault]
    · exact .inl htrail

namespace Probe

/-- A login with the right password, to its end. -/
def admittedLogin : List PortalMove :=
  .start (.request (.login email "open sesame" "::1")) :: List.replicate 14 (.step 0 { env with uuid := uuid 3 })

end Probe

end BackbonePortal
