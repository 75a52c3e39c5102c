import BackbonePortal.Delivery
import BackbonePortal.Sweeps

/-!
# Every transition is audited

A statement that mints, redeems or revokes owes the trail a row that names what
it did. The verbs pay in their next statement, but for two silent arms of
`revoke_access`.
-/

namespace BackbonePortal

open Proc Tables

inductive Fact where
  | inviteMinted (id : Uuid)
  | inviteRedeemed (id : Uuid)
  | inviteRevoked (id : Uuid) (email : String)
  | bearerMinted (id : Uuid)
  | bearerRevoked (id user : Uuid)
  | accessRevoked (user : Uuid)

def Fact.Happens (db db' : Db) : Fact → Prop
  | .inviteMinted id => db.invites.get id = none ∧ ∃ w, db'.invites.get id = some w
  | .inviteRedeemed id =>
    ∃ v w, db.invites.get id = some v ∧ db'.invites.get id = some w ∧ v.status ≠ .redeemed ∧
      w.status = .redeemed
  | .inviteRevoked id email =>
    ∃ v w, db.invites.get id = some v ∧ db'.invites.get id = some w ∧ v.status ≠ .revoked ∧
      w.status = .revoked ∧ w.recipientEmail = email
  | .bearerMinted id => db.tokens.get id = none ∧ ∃ s, db'.tokens.get id = some s
  | .bearerRevoked id user =>
    ∃ t s, db.tokens.get id = some t ∧ db'.tokens.get id = some s ∧ t.status ≠ .revoked ∧
      s.status = .revoked ∧ s.userId = user
  | .accessRevoked user =>
    ∃ u v, db.users.get user = some u ∧ db'.users.get user = some v ∧ u.status ≠ .revoked ∧
      v.status = .revoked

def Fact.NamedBy (event : AuditEvent) : Fact → Prop
  | .inviteMinted id => event.action = "invite_minted" ∧ event.About "portal.portal_invitations" id
  | .inviteRedeemed id => event.action = "invite_redeemed" ∧ event.About "portal.portal_invitations" id
  | .inviteRevoked id email => event.action = "invite_revoked" ∧
      (event.About "portal.portal_invitations" id ∨ event.text "email" = some email)
  | .bearerMinted id => event.action = "bearer_minted" ∧ event.About "portal.portal_tokens" id ∨
      event.action = "bearer_rotated" ∧ event.text "successor" = some id.display
  | .bearerRevoked id user => event.action = "bearer_revoked" ∧
      (event.About "portal.portal_tokens" id ∨ event.About "portal.portal_users" user)
  | .accessRevoked user => (event.action = "lifecycle_access_revoked" ∨ event.action = "bearer_revoked") ∧
      event.About "portal.portal_users" user

def Makes (f : Fact) : Event portalSig → Prop
  | ⟨.sql (.insertInvite id ..), .ok _⟩ => f = .inviteMinted id
  | ⟨.sql (.redeemInvite id ..), .ok true⟩ => f = .inviteRedeemed id
  | ⟨.sql (.revokeInvite id _), .ok n⟩ => n = 1 ∧ ∃ email, f = .inviteRevoked id email
  | ⟨.sql (.revokePending email _), .ok n⟩ => 0 < n ∧ ∃ id, f = .inviteRevoked id email
  | ⟨.sql (.insertToken id ..), .ok _⟩ => f = .bearerMinted id
  | ⟨.sql (.rotateToken _ successor ..), .ok true⟩ => f = .bearerMinted successor
  | ⟨.sql (.revokeToken id _), .ok (some _)⟩ => ∃ user, f = .bearerRevoked id user
  | ⟨.sql (.revokeUserTokens user _), .ok n⟩ => 0 < n ∧ ∃ id, f = .bearerRevoked id user
  | ⟨.sql (.revokeUser user _), .ok (some _)⟩ => f = .accessRevoked user
  | _ => False

def Names (f : Fact) : Event portalSig → Prop
  | ⟨.sql (.appendAudit event), .ok _⟩ => f.NamedBy event
  | _ => False

/-! ## Who made it happen -/

section
variable {q : Stmt} {now : Instant} {scan : Nat} {db db' : Db} {f : Fact}

theorem Fact.not_happens (f : Fact) (db : Db) : ¬f.Happens db db := by
  cases f with
  | inviteMinted id =>
    rintro ⟨hn, w, hw⟩
    rw [hn] at hw; cases hw
  | bearerMinted id =>
    rintro ⟨hn, s, hs⟩
    rw [hn] at hs; cases hs
  | inviteRedeemed id =>
    rintro ⟨v, w, hv, hw, hne, he⟩
    rw [hv] at hw; cases hw
    exact hne he
  | inviteRevoked id email =>
    rintro ⟨v, w, hv, hw, hne, he, -⟩
    rw [hv] at hw; cases hw
    exact hne he
  | bearerRevoked id user =>
    rintro ⟨v, w, hv, hw, hne, he, -⟩
    rw [hv] at hw; cases hw
    exact hne he
  | accessRevoked user =>
    rintro ⟨v, w, hv, hw, hne, he⟩
    rw [hv] at hw; cases hw
    exact hne he

theorem exec_mints_invite {r : q.Res} {id : Uuid} (h : q.exec now scan db = .ok (r, db'))
    (hf : (Fact.inviteMinted id).Happens db db') : Makes (.inviteMinted id) ⟨.sql q, .ok r⟩ := by
  obtain ⟨hnone, w, hw⟩ := hf
  obtain ⟨hmem, rfl⟩ := Table.get_eq_some.mp hw
  rcases invite_origin h hmem with ⟨v, hv, hstep⟩ | ⟨id, email, nonce, expires, grantedBy, rfl, -, rfl⟩
  · exact absurd hstep.id.symm (Table.get_eq_none.mp hnone v hv)
  · rfl

theorem exec_mints_bearer {r : q.Res} {id : Uuid} (h : q.exec now scan db = .ok (r, db'))
    (hf : (Fact.bearerMinted id).Happens db db') : Makes (.bearerMinted id) ⟨.sql q, .ok r⟩ := by
  have hne := Fact.not_happens (.bearerMinted id) db
  obtain ⟨hnone, s, hs⟩ := hf
  obtain ⟨hmem, rfl⟩ := Table.get_eq_some.mp hs
  rcases token_origin h hmem with ⟨t, ht, hstep⟩ | ⟨id, user, nonce, expires, rfl, -, rfl | ⟨old, rfl⟩⟩
  · exact absurd hstep.id.symm (Table.get_eq_none.mp hnone t ht)
  · rfl
  · rcases exec_rotateToken h with ⟨-, rfl⟩ | ⟨spent, t, rfl, -, -, -, -, -⟩
    · exact absurd ⟨hnone, _, hs⟩ hne
    · rfl

theorem invite_settled {r : q.Res} {id : Uuid} {v w : PortalInvite} (h : q.exec now scan db = .ok (r, db'))
    (hv : db.invites.get id = some v) (hw : db'.invites.get id = some w) : InviteStep q now v w := by
  obtain ⟨hmem, hid⟩ := Table.get_eq_some.mp hw
  obtain ⟨hmem₀, hid₀⟩ := Table.get_eq_some.mp hv
  rcases invite_origin h hmem with ⟨u, hu, hstep⟩ | ⟨_, _, _, _, _, rfl, hnone, -⟩
  · rwa [← db.invites.key_inj hu hmem₀ (hstep.id.symm.trans (hid.trans hid₀.symm))]
  · rw [show db.invites.get id = none from hid ▸ hnone] at hv
    cases hv

theorem exec_redeems {r : q.Res} {id : Uuid} (h : q.exec now scan db = .ok (r, db'))
    (hf : (Fact.inviteRedeemed id).Happens db db') : Makes (.inviteRedeemed id) ⟨.sql q, .ok r⟩ := by
  have hne := Fact.not_happens (.inviteRedeemed id) db
  obtain ⟨v, w, hv, hw, hv', hw'⟩ := hf
  rcases (invite_settled h hv hw).status
    with hs | ⟨-, ⟨user, email, rfl, -, -⟩ | ⟨_, -, hs⟩ | ⟨_, -, hs⟩ | ⟨-, -, hs⟩⟩
  · exact absurd (hs.symm.trans hw') hv'
  · have hid := (Table.get_eq_some.mp hv).2
    rcases exec_redeemInvite h with ⟨-, rfl⟩ | ⟨settled, u, rfl, -, -, -, -, -⟩
    · exact absurd ⟨v, w, hv, hw, hv', hw'⟩ hne
    · exact congrArg Fact.inviteRedeemed hid.symm
  · rw [hs] at hw'; cases hw'
  · rw [hs] at hw'; cases hw'
  · rw [hs] at hw'; cases hw'

theorem exec_revokes_invite {r : q.Res} {id : Uuid} {email : String} (h : q.exec now scan db = .ok (r, db'))
    (hf : (Fact.inviteRevoked id email).Happens db db') : Makes (.inviteRevoked id email) ⟨.sql q, .ok r⟩ := by
  obtain ⟨v, w, hv, hw, hv', hw', rfl⟩ := hf
  obtain ⟨hmem, rfl⟩ := Table.get_eq_some.mp hv
  have hstep := invite_settled h hv hw
  rcases hstep.status with hs | ⟨hp, ⟨_, _, -, hs, -⟩ | ⟨reason, rfl, -⟩ | ⟨reason, rfl, -⟩ | ⟨-, -, hs⟩⟩
  · exact absurd (hs.symm.trans hw') hv'
  · rw [hs] at hw'; cases hw'
  · obtain ⟨invites, -, hr, -⟩ := Db.updateInvites_ok h
    refine ⟨?_, _, rfl⟩
    rw [hr, db.invites_with_id, show db.invites.get v.id = some v from hv]
    simp [hp]
  · obtain ⟨invites, -, hr, -⟩ := Db.updateInvites_ok h
    refine ⟨?_, v.id, by rw [hstep.keeps.1]; rfl⟩
    rw [hr, List.length_map]
    exact List.length_pos_of_mem (List.mem_filter.mpr ⟨hmem, by simp [hp]⟩)
  · rw [hs] at hw'; cases hw'

theorem exec_revokes_bearer {r : q.Res} {id user : Uuid} (h : q.exec now scan db = .ok (r, db'))
    (hf : (Fact.bearerRevoked id user).Happens db db') : Makes (.bearerRevoked id user) ⟨.sql q, .ok r⟩ := by
  obtain ⟨t, s, ht, hs, ht', hs', rfl⟩ := hf
  obtain ⟨hmem, rfl⟩ := Table.get_eq_some.mp ht
  obtain ⟨hmem', hid'⟩ := Table.get_eq_some.mp hs
  have hstep : TokenStep q t s := by
    rcases token_origin h hmem' with ⟨u, hu, hstep⟩ | ⟨_, _, _, _, rfl, hnone, -⟩
    · rwa [← db.tokens.key_inj hu hmem (hstep.id.symm.trans hid')]
    · cases hs'
  rcases hstep.status with hst | ⟨ha, ⟨_, _, _, _, -, hst, -⟩ | ⟨reason, rfl, -⟩ | ⟨reason, rfl, -⟩⟩
  · exact absurd (hst.symm.trans hs') ht'
  · rw [hst] at hs'; cases hs'
  · obtain ⟨tokens, -, hr, -⟩ := Db.updateTokens_ok h
    rw [db.tokens_with_id, show db.tokens.get t.id = some t from ht] at hr
    simp only [Option.filter_some, ha, decide_true, if_true, Option.toList_some, List.map_cons, List.map_nil,
      List.head?_cons, Option.map_some] at hr
    rw [hr]
    exact ⟨_, rfl⟩
  · obtain ⟨tokens, -, hr, -⟩ := Db.updateTokens_ok h
    refine ⟨?_, t.id, by rw [hstep.keeps.1]; rfl⟩
    rw [hr, List.length_map]
    exact List.length_pos_of_mem (List.mem_filter.mpr ⟨hmem, by simp [ha]⟩)

theorem exec_revokes_access {r : q.Res} {user : Uuid} (h : q.exec now scan db = .ok (r, db'))
    (hf : (Fact.accessRevoked user).Happens db db') : Makes (.accessRevoked user) ⟨.sql q, .ok r⟩ := by
  obtain ⟨u, v, hu, hv, hu', hv'⟩ := hf
  obtain ⟨hmem, hid⟩ := Table.get_eq_some.mp hv
  obtain ⟨hmem₀, hid₀⟩ := Table.get_eq_some.mp hu
  rcases exec_revoked h ⟨v, hmem, hid, hv'⟩ with ⟨x, hx, hxid, hxr⟩ | hflip
  · rw [db.users.key_inj hx hmem₀ (hxid.trans hid₀.symm)] at hxr
    exact absurd hxr hu'
  · cases q with
    | revokeUser id reason =>
      cases r with
      | none => exact hflip.elim
      | some email => exact congrArg Fact.accessRevoked hflip.symm
    | _ => exact hflip.elim

theorem makes_of_happens {a : Act} {i : Env} {w : World} (hf : f.Happens w.db (a.exec i w).2.db) :
    Makes f ⟨a, (a.exec i w).1⟩ := by
  cases a with
  | sql q =>
    cases hq : (q.answer i w.db).1 with
    | error e =>
      rw [show ((Act.sql q).exec i w).2.db = w.db from Stmt.answer_error hq] at hf
      exact absurd hf (f.not_happens _)
    | ok r =>
      have hexec := (Stmt.answer_ok hq).2
      rw [show ((Act.sql q).exec i w).1 = .ok r from hq]
      cases f with
      | inviteMinted id => exact exec_mints_invite hexec hf
      | inviteRedeemed id => exact exec_redeems hexec hf
      | inviteRevoked id email => exact exec_revokes_invite hexec hf
      | bearerMinted id => exact exec_mints_bearer hexec hf
      | bearerRevoked id user => exact exec_revokes_bearer hexec hf
      | accessRevoked user => exact exec_revokes_access hexec hf
  | _ => exact absurd hf (f.not_happens _)

end

/-! ## The undisturbed run -/

/-- The revocation of an officer, which writes no row of its own. -/
def Request.Officer : Request → Prop
  | .revokeAccess .. => True
  | _ => False

/-- The revocations that settle pending invitations without a row. -/
def Request.Silent : Request → Prop
  | .revokeAccess .. | .handle _ => True
  | _ => False

/-- The sweep of an officer finds a bearer, and a silent sweep no invitation. -/
def Request.Heard (t : Request) (db : Db) : Act → Prop
  | .sql (.revokeUserTokens user _) => t.Officer → ∃ s ∈ db.tokens.rows, s.userId = user ∧ s.status = .active
  | .sql (.revokePending email _) =>
    t.Silent → ∀ v ∈ db.invites.rows, v.recipientEmail = email → v.status ≠ .pending
  | _ => True

def FailureFree (_ : Pool portalMachine Halt Reply Request) : Move portalMachine Request → Prop
  | .start _ => True
  | .step _ i => i.fault = none

def SweepsHeard (pool : Pool portalMachine Halt Reply Request) : Move portalMachine Request → Prop
  | .start _ => True
  | .step j _ => ∀ c ∈ pool.calls[j]?, ∀ a ∈ c.next, c.tag.Heard pool.world.db a

def Calm (t : Request) : Event portalSig → Prop
  | ⟨.sql (.appendAudit _), r⟩ => r = .ok ()
  | ⟨.sql (.revokeUser _ reason), .ok (some _)⟩ => withinLength 120 reason = true
  | ⟨.sql (.revokeUserTokens _ _), .ok n⟩ => t.Officer → 0 < n
  | ⟨.sql (.revokeUserTokens _ reason), .error _⟩ => withinLength 120 reason = false
  | ⟨.sql (.revokePending _ _), .ok n⟩ => t.Silent → n = 0
  | ⟨.sql (.revokePending _ reason), .error _⟩ => withinLength 120 reason = false
  | _ => True

theorem revoked_reason {i : Env} {db : Db} {user : Uuid} {reason email : String}
    (h : ((Stmt.revokeUser user reason).answer i db).1 = .ok (some email)) :
    withinLength 120 reason = true := by
  obtain ⟨u, hu, -, -, -, -, hr, -⟩ := revokeUser_committed h
  exact reason_checked
    (((Stmt.revokeUser user reason).answer i db).2.users.checked u (Table.get_eq_some.mp hu).1) hr

theorem calm_answer {t : Request} {a : Act} {i : Env} {w : World} (hf : i.fault = none) (hh : t.Heard w.db a) :
    Calm t ⟨a, (a.exec i w).1⟩ := by
  cases a with
  | sql q =>
    cases q with
    | appendAudit event => exact congrArg Prod.fst (appendAudit_answer hf)
    | revokeUser user reason =>
      cases hq : ((Stmt.revokeUser user reason).answer i w.db).1 with
      | error e =>
        rw [show ((Act.sql (.revokeUser user reason)).exec i w).1 = .error e from hq]
        trivial
      | ok r =>
        rw [show ((Act.sql (.revokeUser user reason)).exec i w).1 = .ok r from hq]
        cases r with
        | none => trivial
        | some email => exact revoked_reason hq
    | revokeUserTokens user reason =>
      cases hq : ((Stmt.revokeUserTokens user reason).answer i w.db).1 with
      | error e =>
        rw [show ((Act.sql (.revokeUserTokens user reason)).exec i w).1 = .error e from hq]
        apply Bool.eq_false_iff.mpr
        intro hreason
        obtain ⟨n, hn⟩ := revokeUserTokens_succeeds w.db user hreason hf
        rw [hq] at hn
        cases hn
      | ok n =>
        rw [show ((Act.sql (.revokeUserTokens user reason)).exec i w).1 = .ok n from hq]
        intro ho
        obtain ⟨s, hs, hu, ha⟩ := hh ho
        obtain ⟨tokens, -, hr, -⟩ := Db.updateTokens_ok (Stmt.answer_ok hq).2
        rw [hr, List.length_map]
        exact List.length_pos_of_mem (List.mem_filter.mpr ⟨hs, by simp [hu, ha]⟩)
    | revokePending email reason =>
      cases hq : ((Stmt.revokePending email reason).answer i w.db).1 with
      | error e =>
        rw [show ((Act.sql (.revokePending email reason)).exec i w).1 = .error e from hq]
        apply Bool.eq_false_iff.mpr
        intro hreason
        obtain ⟨n, hn⟩ := revokePending_succeeds w.db email hreason hf
        rw [hq] at hn
        cases hn
      | ok n =>
        rw [show ((Act.sql (.revokePending email reason)).exec i w).1 = .ok n from hq]
        intro hs
        obtain ⟨invites, -, hr, -⟩ := Db.updateInvites_ok (Stmt.answer_ok hq).2
        rw [hr, List.length_map, List.length_eq_zero_iff, List.filter_eq_nil_iff]
        intro v hv
        have := hh hs v hv
        simp only [Bool.and_eq_true, decide_eq_true_eq, not_and]
        exact this
    | _ => trivial
  | _ => trivial

/-! ## The rows -/

theorem names_token {action actor : String} {user invite : Option Uuid} {id : Uuid} {detail : Json} :
    (recordAudit action (some actor) user invite (some id) detail).About "portal.portal_tokens" id := ⟨rfl, rfl⟩

theorem names_invite {action actor : String} {user : Option Uuid} {id : Uuid} {detail : Json} :
    (recordAudit action (some actor) user (some id) none detail).About "portal.portal_invitations" id := by
  cases user <;> exact ⟨rfl, rfl⟩

theorem names_user {action actor : String} {id : Uuid} {detail : Json} :
    (recordAudit action (some actor) (some id) none none detail).About "portal.portal_users" id := ⟨rfl, rfl⟩

theorem names_email {action actor reason email : String} {n : Int} :
    (recordAudit action (some actor) none none none (.object [("reason", .str reason), ("email", .str email),
      ("revoked_count", .num n)])).text "email" = some email := by
  have hcount : "revoked_count" ≠ "email" := by decide
  exact (Json.text_insert_other hcount).trans Json.text_insert_self

theorem names_successor {action actor : String} {user id successor : Uuid} {expires : String} :
    (recordAudit action (some actor) (some user) none (some id) (.object [("successor", .str successor.display),
      ("expires_at", .str expires)])).text "successor" = some successor.display := by
  have huser : "portal_user_id" ≠ "successor" := by decide
  have hexpires : "expires_at" ≠ "successor" := by decide
  exact (Json.text_insert_other huser).trans ((Json.text_insert_other hexpires).trans Json.text_insert_self)

/-! ## The verbs -/

abbrev Act.Idle (a : Act) : Prop := ∀ r f, ¬Makes f ⟨a, r⟩

/-- In an undisturbed run the program records what it makes happen. -/
abbrev Pays (t : Request) (p : Verb α) : Prop := p.Owes (Calm t) Makes Names fun _ => False

theorem makes_error {q : Stmt} {e : SqlError} {f : Fact} : ¬Makes f ⟨.sql q, .error e⟩ := by
  cases q <;> exact not_false

section
variable {t : Request} {α β : Type}

theorem pays_idle {p : Verb α} (hp : p.All Act.Idle) : Pays t p := .of_all hp

theorem pays_query {q : Stmt} {g : q.Res → Verb β}
    (hq : ∀ r f, Calm t ⟨.sql q, .ok r⟩ → Makes f ⟨.sql q, .ok r⟩ →
    (g r).Due (Calm t) (Names f) fun _ => False) (hg : ∀ r, Pays t (g r)) : Pays t ((query q).bind g) := by
  intro r hr
  cases r with
  | ok r => exact ⟨fun f hf => hq r f hr hf, hg r⟩
  | error e => exact ⟨fun f hf => absurd hf makes_error, trivial⟩

theorem due_audit {event : AuditEvent} {f : Fact} (h : f.NamedBy event) :
    (query (.appendAudit event)).Due (Calm t) (Names f) fun _ => False := by
  intro r hr
  cases hr
  exact .inl h

theorem due_audit_then {event : AuditEvent} {g : Unit → Verb β} {f : Fact} (h : f.NamedBy event) :
    ((query (.appendAudit event)).bind g).Due (Calm t) (Names f) fun _ => False := (due_audit h).bind

theorem Act.Verifies.idle {a : Act} (h : a.Verifies) : a.Idle := by
  cases a with
  | sql q => cases q <;> first | exact h.elim | exact fun _ _ => not_false
  | _ => exact fun _ _ => not_false

theorem audit_idle {event : AuditEvent} : (query (.appendAudit event)).All Act.Idle :=
  all_query fun _ _ => not_false

variable (P : Portal)

theorem mintBearer_pays (user : Uuid) (ttl : Int) : Pays t (P.mintBearer user ttl) := by
  refine .bind (pays_idle (all_ofExcept _)) fun _ => .bind (pays_idle (all_step fun _ _ => not_false)) fun id =>
    .bind (pays_idle (all_step fun _ _ => not_false)) fun nonce =>
      .bind (pays_idle (all_step fun _ _ => not_false)) fun now =>
      .bind (pays_idle all_lifetime) fun expires => pays_query (fun r f _ hf => ?_) fun _ =>
        pays_idle (.bind audit_idle fun _ => all_ofExcept _)
  cases hf
  exact due_audit_then (.inl ⟨rfl, names_token⟩)

theorem rotateBearer_pays (link : String) (ttl : Int) : Pays t (P.rotateBearer link ttl) := by
  refine .bind (pays_idle (verifyBearer_all P (fun a h => h.idle) link)) fun p => ?_
  split
  · trivial
  refine .bind (pays_idle (all_step fun _ _ => not_false)) fun id =>
    .bind (pays_idle (all_step fun _ _ => not_false)) fun nonce =>
    .bind (pays_idle (all_step fun _ _ => not_false)) fun now => .bind (pays_idle all_lifetime) fun expires =>
      pays_query (fun r f _ hf => ?_) fun r => ?_
  · cases r with
    | false => exact hf.elim
    | true =>
      cases hf
      exact due_audit_then (.inr ⟨rfl, names_successor⟩)
  · cases r with
    | false => trivial
    | true => exact pays_idle (.bind audit_idle fun _ => all_ofExcept _)

theorem revokeBearer_pays (id : Uuid) (reason actor : String) : Pays t (revokeBearer id reason actor) := by
  refine pays_query (fun r f _ hf => ?_) fun r => ?_
  · cases r with
    | none => exact hf.elim
    | some user =>
      obtain ⟨owner, rfl⟩ := hf
      exact due_audit ⟨rfl, .inl names_token⟩
  · cases r with
    | none => trivial
    | some user => exact pays_idle audit_idle

theorem revokeAllBearers_pays (user : Uuid) (reason actor : String) :
    Pays t (revokeAllBearers user reason actor) := by
  refine pays_query (fun n f _ hf => ?_) fun n => ?_
  · obtain ⟨hn, id, rfl⟩ := hf
    rw [if_pos hn]
    exact due_audit_then ⟨rfl, .inr names_user⟩
  · split
    · exact pays_idle (.bind audit_idle fun _ => trivial)
    · trivial

theorem mintInvite_pays (email : String) (grantedBy : Option Uuid) (ttl : Int) :
    Pays t (P.mintInvite email grantedBy ttl) := by
  unfold Portal.mintInvite
  dsimp only
  split
  · trivial
  refine .bind (pays_idle (all_step fun _ _ => not_false)) fun id =>
    .bind (pays_idle (all_step fun _ _ => not_false)) fun nonce =>
    .bind (pays_idle (all_step fun _ _ => not_false)) fun now => .bind (pays_idle all_lifetime) fun expires =>
      pays_query (fun r f _ hf => ?_) fun _ => pays_idle (.bind audit_idle fun _ => all_ofExcept _)
  cases hf
  exact due_audit_then ⟨rfl, names_invite⟩

theorem redeem_pays (link email : String) : Pays t (P.redeem link email) := by
  unfold Portal.redeem
  dsimp only
  split
  · trivial
  refine .bind (pays_idle (all_query fun _ _ => not_false)) fun row => ?_
  split
  · trivial
  split
  · trivial
  refine .bind (pays_idle (all_step fun _ _ => not_false)) fun now => ?_
  split
  · trivial
  refine .bind (pays_idle (all_step fun _ _ => not_false)) fun user =>
    pays_query (fun r f _ hf => ?_) fun r => ?_
  · cases r with
    | false => exact hf.elim
    | true =>
      cases hf
      exact due_audit_then ⟨rfl, names_invite⟩
  · cases r with
    | false => trivial
    | true => exact .bind (pays_idle audit_idle) fun _ => .bind (mintBearer_pays P _ _) fun _ => trivial

theorem revokeInvite_pays (id : Uuid) (reason actor : String) : Pays t (revokeInvite id reason actor) := by
  refine pays_query (fun n f _ hf => ?_) fun n => ?_
  · obtain ⟨rfl, email, rfl⟩ := hf
    rw [if_neg (not_not.mpr rfl)]
    exact due_audit ⟨rfl, .inl names_invite⟩
  · split
    · trivial
    · exact pays_idle audit_idle

theorem revokePendingForEmail_pays (email reason actor : String) :
    Pays t (P.revokePendingForEmail email reason actor) := by
  refine pays_query (fun n f _ hf => ?_) fun n => ?_
  · obtain ⟨hn, id, rfl⟩ := hf
    rw [if_pos hn]
    exact due_audit_then ⟨rfl, .inr names_email⟩
  · split
    · exact pays_idle (.bind audit_idle fun _ => trivial)
    · trivial

theorem setSignupPolicy_idle (enabled : Bool) (note : Option String) (officer : Option Uuid) :
    (setSignupPolicy enabled note officer).All Act.Idle :=
  .bind (all_step fun _ _ => not_false) fun _ => .bind (all_query fun _ _ => not_false) fun _ => audit_idle

theorem registerNow_idle (key : String) : (registerNow key).All Act.Idle :=
  .bind (all_step fun _ _ => not_false) fun _ => all_step fun _ _ => not_false

theorem checkNow_idle (key : String) : (checkNow key).All Act.Idle :=
  .bind (all_step fun _ _ => not_false) fun _ => all_checkKey fun _ _ => not_false

theorem view_idle (user : Uuid) : (view user).All Act.Idle := by
  refine .bind (all_query fun _ _ => not_false) fun row => ?_
  split <;> trivial

theorem updateMyDetails_idle (p : PortalPrincipal) (patch : PortalDetailPatch) :
    (updateMyDetails p patch).All Act.Idle := by
  unfold updateMyDetails
  split
  · trivial
  refine .bind (all_ofExcept _) fun _ => .bind (all_query fun _ _ => not_false) fun n => ?_
  split
  · trivial
  · exact view_idle _

theorem refuseLogin_idle (user : Option Uuid) (idKey ipKey : String) (detail : Json) :
    (Portal.refuseLogin user idKey ipKey detail : Verb α).All Act.Idle :=
  .bind (registerNow_idle _) fun _ => .bind (registerNow_idle _) fun _ => .bind audit_idle fun _ => trivial

theorem succeedLogin_pays (user : Uuid) (idKey ipKey event : String) :
    Pays t (P.succeedLogin user idKey ipKey event) :=
  .bind (pays_idle (all_step fun _ _ => not_false)) fun _ =>
    .bind (pays_idle (all_step fun _ _ => not_false)) fun _ =>
    .bind (pays_idle (all_step fun _ _ => not_false)) fun _ => .bind (mintBearer_pays P _ _) fun _ =>
      pays_idle (.bind audit_idle fun _ => trivial)

theorem verifyAndMint_pays (email presented ip event : String) :
    Pays t (P.verifyAndMint email presented ip event) := by
  refine .bind (pays_idle (all_step fun _ _ => not_false)) fun now =>
    .bind (pays_idle (all_checkKey fun _ _ => not_false)) fun _ =>
      .bind (pays_idle (all_checkKey fun _ _ => not_false)) fun _ =>
      .bind (pays_idle (all_query fun _ _ => not_false)) fun row => ?_
  split
  · exact pays_idle (refuseLogin_idle _ _ _ _)
  split
  · exact pays_idle (refuseLogin_idle _ _ _ _)
  refine .bind (pays_idle (all_step fun _ _ => not_false)) fun verdict => ?_
  split
  · exact succeedLogin_pays P _ _ _ _
  · exact pays_idle (refuseLogin_idle _ _ _ _)
  · trivial
  · exact pays_idle (.bind audit_idle fun _ => trivial)

theorem login_pays (email presented ip : String) : Pays t (P.login email presented ip) := by
  unfold Portal.login
  dsimp only
  split
  · trivial
  · exact verifyAndMint_pays P _ _ _ _

theorem createPrincipal_pays (email : String) : Pays t (P.createPrincipal email) := by
  refine .bind (pays_idle (all_step fun _ _ => not_false)) fun id =>
    .bind (pays_idle (all_query fun _ _ => not_false)) fun inserted => .bind (pays_idle ?_) fun user =>
      .bind (pays_idle audit_idle) fun _ => .bind (mintBearer_pays P _ _) fun _ => trivial
  unfold Portal.createdPrincipal
  split
  · trivial
  · refine .bind (all_query fun _ _ => not_false) fun row => ?_
    split <;> trivial

theorem signup_pays (email presented ip : String) : Pays t (P.signup email presented ip) := by
  unfold Portal.signup
  dsimp only
  split
  · trivial
  have hopen : signupOpen.All Act.Idle := by
    refine .bind (all_step fun _ _ => not_false) fun r => ?_
    split <;> trivial
  refine .bind (pays_idle hopen) fun is_open => ?_
  cases is_open with
  | false => exact pays_idle (.bind audit_idle fun _ => trivial)
  | true =>
    refine .bind (pays_idle (all_query fun _ _ => not_false)) fun row => ?_
    split
    · split
      · trivial
      · exact verifyAndMint_pays P _ _ _ _
    · refine .bind (pays_idle (checkNow_idle _)) fun _ => .bind (pays_idle (checkNow_idle _)) fun _ =>
        .bind (pays_idle (all_step fun _ _ => not_false)) fun verdict => ?_
      split
      · exact createPrincipal_pays P _
      · exact pays_idle (.bind (registerNow_idle _) fun _ => .bind (registerNow_idle _) fun _ => trivial)
      · trivial
      · exact pays_idle (.bind audit_idle fun _ => trivial)

/-! ### Revocations -/

theorem sweepAccess_lands (user : Uuid) (email reason actor : String)
    (hreason : withinLength 120 reason = true) :
    (sweepAccess user email reason actor).Lands (Calm t) fun o => ∃ a, o = .ok a ∧ a = true := by
  have pending : ((query (.revokePending email reason)).bind fun _ => .ret true : Verb Bool).Lands (Calm t)
      fun o => ∃ a, o = .ok a ∧ a = true := by
    intro r hr
    cases r with
    | ok n => exact ⟨true, rfl, rfl⟩
    | error e => exact absurd hreason (Bool.eq_false_iff.mp hr)
  intro r hr
  cases r with
  | error e => exact absurd hreason (Bool.eq_false_iff.mp hr)
  | ok n =>
    show (Prog.bind (if 0 < n then _ else _) _).Lands _ _
    split
    · intro r hr
      cases hr
      exact pending
    · exact pending

theorem sweepAccess_pays (ht : t.Silent) (user : Uuid) (email reason actor : String) :
    Pays t (sweepAccess user email reason actor) := by
  refine .bind (revokeAllBearers_pays _ _ _) fun _ => pays_query (fun n f hn hf => ?_) fun _ => trivial
  exact absurd hf.1 (by rw [hn ht]; exact Nat.lt_irrefl 0)

theorem revokeAccess_pays (ht : t.Silent) (ho : t.Officer) (user : Uuid) (reason actor : String) :
    Pays t (revokeAccess user reason actor) := by
  refine pays_query (fun r f hr hf => ?_) fun r => ?_
  · cases r with
    | none => exact hf.elim
    | some email =>
      cases hf
      show (Prog.bind (revokeAllBearers user reason actor) _).Due _ _ _
      intro answer ha
      cases answer with
      | error e => exact absurd (show withinLength 120 reason = true from hr) (Bool.eq_false_iff.mp ha)
      | ok n =>
        refine .inr ?_
        show (Prog.bind (if 0 < n then _ else _) _).Due _ _ _
        rw [if_pos (ha ho)]
        refine Prog.Due.bind (due_audit_then ?_)
        exact ⟨.inr rfl, names_user⟩
  · cases r with
    | none => trivial
    | some email => exact sweepAccess_pays ht user email reason actor

theorem busQuery_idle {label : String} {q : Stmt} (h : Act.Idle (.sql q)) :
    (P.busQuery label q).All Act.Idle := busQuery_all P h

theorem revocation_pays (ht : t.Silent) {env : Envelope} {user sapiens : Uuid} {closing : Bool → Verb Unit}
    (hidle : closing false = pure ())
    (haudit : closing true =
      P.lifecycleAudit "revocation audit" "lifecycle_access_revoked" env (some user) sapiens) :
    Pays t (((revokeAccess user ("lifecycle:" ++ env.eventType) "lifecycle").mapErr
      (P.busError "revocation arm")).bind closing) := by
  have audited : ∀ flipped, Pays t (closing flipped) := by
    intro flipped
    cases flipped with
    | false =>
      rw [hidle]
      trivial
    | true =>
      rw [haudit]
      exact pays_idle (busQuery_idle P fun _ _ => not_false)
  intro r hr
  cases r with
  | error e => exact ⟨fun f hf => hf.elim, trivial⟩
  | ok found =>
    cases found with
    | none => exact ⟨fun f hf => hf.elim, audited false⟩
    | some email =>
      refine ⟨fun f hf => ?_, ?_⟩
      · cases hf
        refine (sweepAccess_lands user email _ "lifecycle" hr).mapErr.due fun flipped hflipped => ?_
        subst hflipped
        rw [haudit]
        intro r hr
        cases hr
        exact .inl ⟨.inl rfl, names_user⟩
      · show Pays t (((sweepAccess user email _ "lifecycle").mapErr (P.busError "revocation arm")).bind closing)
        exact (Prog.Owes.mapErr (g := P.busError "revocation arm") (fun _ h => h)
          (sweepAccess_pays ht user email _ _)).bind audited

theorem onUserGone_pays (ht : t.Silent) (env : Envelope) : Pays t (P.onUserGone env) := by
  unfold Portal.onUserGone
  split
  next => trivial
  next payload _ =>
  split
  next => trivial
  next sapiens _ =>
  refine .bind (pays_idle (busQuery_idle P fun _ _ => not_false)) fun found => ?_
  split
  next => trivial
  next user => exact revocation_pays P ht rfl rfl

theorem handle_pays (env : Envelope) : Pays (.handle env) (P.handle env) := by
  unfold Portal.handle
  split
  · unfold Portal.onCreated
    split
    · trivial
    split
    · trivial
    refine pays_idle (.bind (busQuery_idle P fun _ _ => not_false) fun found => ?_)
    split <;> exact busQuery_idle P fun _ _ => not_false
  split
  · exact onUserGone_pays P (t := .handle env) trivial env
  · trivial

/-! ### Routes -/

theorem pays_answered {p : Verb α} {ok : α → Response} {err : PortalError → Verb Response} (hp : Pays t p)
    (herr : ∀ e, (err e).All Act.Idle) : Pays t (answered p ok err) := by
  refine .bind hp.attempt fun r => ?_
  cases r with
  | ok a => trivial
  | error h =>
    cases h with
    | err e => exact pays_idle (herr e)
    | event h m => trivial
    | panicked m => trivial

theorem route_pays (request : RouteRequest) : Pays t (P.route request) := by
  cases request with
  | redeemInvite headers body =>
    cases body with
    | error e => trivial
    | ok body =>
      apply pays_answered (redeem_pays P _ _)
      intro e
      split
      · exact .bind (registerNow_idle _) fun _ => .bind (registerNow_idle _) fun _ => trivial
      · trivial
  | login headers body =>
    cases body with
    | error e => trivial
    | ok body => exact pays_answered (login_pays P _ _ _) fun _ => trivial
  | signup headers body =>
    cases body with
    | error e => trivial
    | ok body => exact pays_answered (signup_pays P _ _ _) fun _ => trivial
  | rotate headers body =>
    cases body with
    | error e => trivial
    | ok body =>
      refine .bind (pays_idle (checkNow_idle _).attempt) fun r => ?_
      split
      · trivial
      · trivial
      apply pays_answered (rotateBearer_pays P _ _)
      intro e
      split
      · exact .bind (registerNow_idle _) fun _ => trivial
      · trivial

theorem serve_pays (t : Request) : Pays t (P.serve t) := by
  cases t with
  | mintBearer user ttl => exact .bind (mintBearer_pays P _ _) fun _ => trivial
  | verifyBearer link => exact .bind (pays_idle (verifyBearer_all P (fun a h => h.idle) link)) fun _ => trivial
  | rotateBearer link ttl => exact .bind (rotateBearer_pays P _ _) fun _ => trivial
  | revokeBearer id reason actor => exact .bind (revokeBearer_pays _ _ _) fun _ => trivial
  | revokeAllBearers user reason actor => exact .bind (revokeAllBearers_pays _ _ _) fun _ => trivial
  | mintInvite email grantedBy ttl => exact .bind (mintInvite_pays P _ _ _) fun _ => trivial
  | redeem link email => exact .bind (redeem_pays P _ _) fun _ => trivial
  | revokeInvite id reason actor => exact .bind (revokeInvite_pays _ _ _) fun _ => trivial
  | revokePendingForEmail email reason actor =>
    exact .bind (revokePendingForEmail_pays P _ _ _) fun _ => trivial
  | sweepExpired => exact pays_idle (.bind (all_query fun _ _ => not_false) fun _ => trivial)
  | setSignupPolicy enabled note officer =>
    exact pays_idle (.bind (setSignupPolicy_idle _ _ _) fun _ => trivial)
  | login email presented ip => exact .bind (login_pays P _ _ _) fun _ => trivial
  | signup email presented ip => exact .bind (signup_pays P _ _ _) fun _ => trivial
  | revokeAccess user reason actor =>
    exact .bind (revokeAccess_pays (t := .revokeAccess user reason actor) trivial trivial _ _ _)
      fun _ => trivial
  | myDetails p => exact pays_idle (.bind (view_idle _) fun _ => trivial)
  | updateMyDetails p patch => exact pays_idle (.bind (updateMyDetails_idle _ _) fun _ => trivial)
  | myAccessHistory p limit => exact pays_idle (.bind (all_query fun _ _ => not_false) fun _ => trivial)
  | handle env => exact .bind (handle_pays P env) fun _ => trivial
  | route request => exact .bind (route_pays P request) fun _ => trivial

end

/-! ## The runs -/

theorem names_appends {f : Fact} {a : Act} {i : Env} {w : World} (h : Names f ⟨a, (a.exec i w).1⟩) :
    ∃ event now, (a.exec i w).2.db.trail = w.db.trail ++ [⟨event, now⟩] ∧ f.NamedBy event := by
  cases a with
  | sql q =>
    cases q with
    | appendAudit event =>
      cases hf : i.fault with
      | none =>
        rw [show ((Act.sql (.appendAudit event)).exec i w).1 =
          .ok () from congrArg Prod.fst (appendAudit_answer hf)] at h
        exact ⟨event, i.now.stored, by simp only [Act.exec, appendAudit_answer hf, Db.appended], h⟩
      | some text =>
        rw [show ((Act.sql (.appendAudit event)).exec i w).1 = .error (.fault text) from
          congrArg Prod.fst (Stmt.answer_fault hf)] at h
        exact h.elim
    | _ => exact h.elim
  | _ => exact h.elim

theorem access_revoked {db db' : Db} {user : Uuid} (h : (db.users.get user).map (·.status) = some .active)
    (h' : (db'.users.get user).map (·.status) = some .revoked) : (Fact.accessRevoked user).Happens db db' := by
  obtain ⟨u, hu, hs⟩ := Option.map_eq_some_iff.mp h
  obtain ⟨v, hv, hr⟩ := Option.map_eq_some_iff.mp h'
  exact ⟨u, v, hu, hv, by simp [hs], hr⟩

instance (pool : Pool portalMachine Halt Reply Request) (m : Move portalMachine Request) :
    Decidable (FailureFree pool m) :=
  match m with
  | .start _ => inferInstanceAs (Decidable True)
  | .step _ i => inferInstanceAs (Decidable (i.fault = none))

instance : DecidablePred Request.Officer := fun t => by
  unfold Request.Officer
  split <;> exact inferInstance

instance : DecidablePred Request.Silent := fun t => by
  unfold Request.Silent
  split <;> exact inferInstance

instance (t : Request) (db : Db) (a : Act) : Decidable (t.Heard db a) := by
  unfold Request.Heard
  split <;> exact inferInstance

instance (pool : Pool portalMachine Halt Reply Request) (m : Move portalMachine Request) :
    Decidable (SweepsHeard pool m) :=
  match m with
  | .start _ => inferInstanceAs (Decidable True)
  | .step j _ => inferInstanceAs (Decidable (∀ c ∈ pool.calls[j]?, ∀ a ∈ c.next, c.tag.Heard pool.world.db a))

namespace Probe

/-- A store with one active principal and a pending invitation for its address. -/
def invitedAgain : Pool portalMachine Halt Reply Request :=
  ⟨world { enrolled with invites := .single invite invite_unbroken }, []⟩

def silenced : List (Move portalMachine Request) :=
  alone 0 3 (.revokeAccess (uuid 2) "offboarded" "officer") env

def loggedIn : List (Move portalMachine Request) :=
  loggingIn 14 ++ [.start (.revokeAccess (uuid 2) "offboarded" "officer")]

end Probe

end BackbonePortal
