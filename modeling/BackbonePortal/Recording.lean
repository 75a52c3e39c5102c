import BackbonePortal.Allowance
import BackbonePortal.Auditing
import BackbonePortal.Edges
import BackbonePortal.InviteOneShot
import BackbonePortal.RotationChain
import BackbonePortal.Testimony

/-!
# No edge is recorded twice

An invitation is minted, redeemed and revoked once, a bearer minted, rotated
and revoked once, the access of a principal revoked once. Each call writes the
row of such an edge only after taking the edge itself, so the trail holds at
most one row of it.
-/

namespace BackbonePortal

open Proc Tables

/-! ## Edges -/

inductive Edge where
  | inviteMinted (id : Uuid)
  | inviteRedeemed (id : Uuid)
  | inviteRevoked (id : Uuid)
  | bearerMinted (id : Uuid)
  | bearerRotated (id : Uuid)
  | bearerRevoked (id : Uuid)
  | accessRevoked (user : Uuid)

namespace Edge

/-- The action of its row. -/
def action : Edge → String
  | .inviteMinted _ => "invite_minted"
  | .inviteRedeemed _ => "invite_redeemed"
  | .inviteRevoked _ => "invite_revoked"
  | .bearerMinted _ => "bearer_minted"
  | .bearerRotated _ => "bearer_rotated"
  | .bearerRevoked _ => "bearer_revoked"
  | .accessRevoked _ => "lifecycle_access_revoked"

/-- The subject of its row. -/
def subject : Edge → String × Uuid
  | .inviteMinted id | .inviteRedeemed id | .inviteRevoked id => ("portal.portal_invitations", id)
  | .bearerMinted id | .bearerRotated id | .bearerRevoked id => ("portal.portal_tokens", id)
  | .accessRevoked user => ("portal.portal_users", user)

def row (e : Edge) (event : AuditEvent) : Bool :=
  event.action = e.action && event.subjectType = some e.subject.1 && event.subjectId = some e.subject.2.display

/-- The answered statement that takes it. -/
def takes : Edge → Event portalSig → Bool
  | .inviteMinted id, ⟨.sql (.insertInvite k ..), .ok _⟩ => k = id
  | .inviteRedeemed id, ⟨.sql (.redeemInvite k ..), .ok true⟩ => k = id
  | .inviteRevoked id, ⟨.sql (.revokeInvite k _), .ok n⟩ => k = id && n = 1
  | .bearerMinted id, ⟨.sql (.insertToken k ..), .ok _⟩ => k = id
  | .bearerRotated id, ⟨.sql (.rotateToken k ..), .ok true⟩ => k = id
  | .bearerRevoked id, ⟨.sql (.revokeToken k _), .ok (some _)⟩ => k = id
  | .accessRevoked user, ⟨.sql (.revokeUser k _), .ok (some _)⟩ => k = user
  | _, _ => false

/-- It was taken, or can no longer be. -/
def Done : Edge → World → Prop
  | .inviteMinted id, w => (w.db.invites.get id).isSome = true
  | .inviteRedeemed id, w => Redeemed id w
  | .inviteRevoked id, w => ∃ v, w.db.invites.get id = some v ∧ v.status = .revoked
  | .bearerMinted id, w => (w.db.tokens.get id).isSome = true
  | .bearerRotated id, w => Spent id w
  | .bearerRevoked id, w => ∃ t, w.db.tokens.get id = some t ∧ t.status = .revoked
  | .accessRevoked user, w => w.Revoked user

theorem row_iff {e : Edge} {event : AuditEvent} : e.row event = true ↔
    event.action = e.action ∧ event.subjectType = some e.subject.1 ∧ event.subjectId = some e.subject.2.display := by
  simp only [row, Bool.and_eq_true, decide_eq_true_eq, and_assoc]

/-- A row is of one edge. -/
theorem row_inj {e e' : Edge} {event : AuditEvent} (h : e.row event = true) (h' : e'.row event = true) : e = e' := by
  obtain ⟨haction, -, hid⟩ := row_iff.mp h
  obtain ⟨haction', -, hid'⟩ := row_iff.mp h'
  have hact : e.action = e'.action := haction.symm.trans haction'
  have hsub : e.subject.2 = e'.subject.2 := Uuid.display_inj (Option.some.inj (hid.symm.trans hid'))
  cases e <;> cases e' <;> first | exact congrArg _ hsub | exact absurd hact (by simp only [action]; decide)

def actions : List String :=
  ["invite_minted", "invite_redeemed", "invite_revoked", "bearer_minted", "bearer_rotated", "bearer_revoked",
    "lifecycle_access_revoked"]

theorem row_other {e : Edge} {event : AuditEvent} (h : event.action ∉ actions) :
    e.row event = false := by
  apply Bool.eq_false_iff.mpr
  intro hrow
  rw [(row_iff.mp hrow).1] at h
  cases e <;> exact h (by simp only [action]; decide)

end Edge

/-! ## Taken once -/

section
variable {e : Edge} {a : Act} {i : Env} {w : World}

theorem done_exec (h : e.Done w) : e.Done (a.exec i w).2 := by
  have hg := grows_exec a i w
  cases e with
  | inviteMinted id =>
    obtain ⟨v, hv⟩ := Option.isSome_iff_exists.mp h
    obtain ⟨v', hv', -⟩ := hg.invites.get hv
    exact Option.isSome_iff_exists.mpr ⟨v', hv'⟩
  | inviteRedeemed id => exact Redeemed.later h hg
  | inviteRevoked id =>
    obtain ⟨v, hv, hs⟩ := h
    obtain ⟨v', hv', hk⟩ := hg.invites.get hv
    exact ⟨v', hv', (hk.2.2.2.2 (by simp [hs])).1.trans hs⟩
  | bearerMinted id =>
    obtain ⟨t, ht⟩ := Option.isSome_iff_exists.mp h
    obtain ⟨t', ht', -⟩ := hg.tokens.get ht
    exact Option.isSome_iff_exists.mpr ⟨t', ht'⟩
  | bearerRotated id => exact Spent.later h hg
  | bearerRevoked id =>
    obtain ⟨t, ht, hs⟩ := h
    obtain ⟨t', ht', hk⟩ := hg.tokens.get ht
    exact ⟨t', ht', (hk.2.2.2.2 (by simp [hs])).1.trans hs⟩
  | accessRevoked user => exact revoked_exec h

theorem revokeInvite_fires {id : Uuid} {reason : String}
    (h : ((Act.sql (.revokeInvite id reason)).exec i w).1 = .ok 1) :
    ¬(Edge.inviteRevoked id).Done w ∧
      (Edge.inviteRevoked id).Done ((Act.sql (.revokeInvite id reason)).exec i w).2 := by
  obtain ⟨invites, hu, hn, hdb⟩ := Db.updateInvites_ok (Stmt.answer_ok h).2
  obtain ⟨v, hv⟩ := List.exists_mem_of_length_pos (by rw [← hn]; exact Nat.one_pos)
  obtain ⟨v₀, hget, hp, rfl, hget'⟩ := update_answered hu hv
  simp only [Bool.and_eq_true, decide_eq_true_eq] at hp
  have hid : inviteSchema.key (v₀.revoke reason i.now.stored) = id := hp.1
  rw [hid] at hget hget'
  constructor
  · rintro ⟨x, hx, hrevoked⟩
    cases hget.symm.trans hx
    rw [hp.2] at hrevoked
    cases hrevoked
  · refine ⟨v₀.revoke reason i.now.stored, ?_, rfl⟩
    show ((Stmt.revokeInvite id reason).answer i w.db).2.invites.get _ = _
    rw [hdb]
    exact hget'

theorem revokeToken_fires {id user : Uuid} {reason : String}
    (h : ((Act.sql (.revokeToken id reason)).exec i w).1 = .ok (some user)) :
    ¬(Edge.bearerRevoked id).Done w ∧
      (Edge.bearerRevoked id).Done ((Act.sql (.revokeToken id reason)).exec i w).2 := by
  obtain ⟨tokens, hu, hans, hdb⟩ := Db.updateTokens_ok (Stmt.answer_ok h).2
  obtain ⟨t, ht, -⟩ := Option.map_eq_some_iff.mp hans.symm
  obtain ⟨t₀, hget, hp, rfl, hget'⟩ := update_answered hu (List.mem_of_mem_head? ht)
  simp only [Bool.and_eq_true, decide_eq_true_eq] at hp
  have hid : tokenSchema.key (t₀.revoke reason i.now.stored) = id := hp.1
  rw [hid] at hget hget'
  constructor
  · rintro ⟨x, hx, hrevoked⟩
    cases hget.symm.trans hx
    rw [hp.2] at hrevoked
    cases hrevoked
  · refine ⟨t₀.revoke reason i.now.stored, ?_, rfl⟩
    show ((Stmt.revokeToken id reason).answer i w.db).2.tokens.get _ = _
    rw [hdb]
    exact hget'

theorem insertInvite_fires {id : Uuid} {email nonce : String} {expires : Instant} {grantedBy : Option Uuid}
    (h : ((Act.sql (.insertInvite id email nonce expires grantedBy)).exec i w).1 = .ok ()) :
    ¬(Edge.inviteMinted id).Done w ∧
      (Edge.inviteMinted id).Done ((Act.sql (.insertInvite id email nonce expires grantedBy)).exec i w).2 := by
  obtain ⟨invites, hi, hdb⟩ := exec_insertInvite (Stmt.answer_ok h).2
  obtain ⟨hnone, hsome⟩ := Table.insert_get_self hi
  constructor
  · intro hdone
    rw [Edge.Done, show w.db.invites.get id = none from hnone] at hdone
    cases hdone
  · show (((Stmt.insertInvite id email nonce expires grantedBy).answer i w.db).2.invites.get id).isSome = true
    rw [hdb]
    exact Option.isSome_iff_exists.mpr ⟨_, hsome⟩

theorem insertToken_fires {id user : Uuid} {nonce : String} {expires : Instant}
    (h : ((Act.sql (.insertToken id user nonce expires)).exec i w).1 = .ok ()) :
    ¬(Edge.bearerMinted id).Done w ∧
      (Edge.bearerMinted id).Done ((Act.sql (.insertToken id user nonce expires)).exec i w).2 := by
  obtain ⟨tokens, hi, -, hdb⟩ := Db.insertToken_ok (exec_insertToken (Stmt.answer_ok h).2)
  obtain ⟨hnone, hsome⟩ := Table.insert_get_self hi
  constructor
  · intro hdone
    rw [Edge.Done, show w.db.tokens.get id = none from hnone] at hdone
    cases hdone
  · show (((Stmt.insertToken id user nonce expires).answer i w.db).2.tokens.get id).isSome = true
    rw [hdb]
    exact Option.isSome_iff_exists.mpr ⟨_, hsome⟩

theorem takes_fires (a : Act) (i : Env) (w : World) (h : e.takes ⟨a, (a.exec i w).1⟩ = true) :
    ¬e.Done w ∧ e.Done (a.exec i w).2 := by
  unfold Edge.takes at h
  split at h
  next id k email nonce expires grantedBy u hev =>
    obtain ⟨rfl, hr⟩ := Event.mk.inj hev
    obtain rfl := of_decide_eq_true h
    exact insertInvite_fires (eq_of_heq hr)
  next id k user email hev =>
    obtain ⟨rfl, hr⟩ := Event.mk.inj hev
    exact redeems_fires _ i w ⟨of_decide_eq_true h, eq_of_heq hr⟩
  next id k reason n hev =>
    obtain ⟨rfl, hr⟩ := Event.mk.inj hev
    simp only [Bool.and_eq_true, decide_eq_true_eq] at h
    obtain ⟨rfl, rfl⟩ := h
    exact revokeInvite_fires (eq_of_heq hr)
  next id k user nonce expires u hev =>
    obtain ⟨rfl, hr⟩ := Event.mk.inj hev
    obtain rfl := of_decide_eq_true h
    exact insertToken_fires (eq_of_heq hr)
  next id k successor user nonce expires hev =>
    obtain ⟨rfl, hr⟩ := Event.mk.inj hev
    exact rotates_fires _ i w ⟨of_decide_eq_true h, eq_of_heq hr⟩
  next id k reason user hev =>
    obtain ⟨rfl, hr⟩ := Event.mk.inj hev
    obtain rfl := of_decide_eq_true h
    exact revokeToken_fires (eq_of_heq hr)
  next user k reason email hev =>
    obtain ⟨rfl, hr⟩ := Event.mk.inj hev
    refine flips_fires ?_
    rw [eq_of_heq hr]
    exact of_decide_eq_true h
  · cases h

end

/-! ## The rules -/

/-- With `n` of the edge taken and not yet recorded, the verb records no more than it takes. -/
abbrev Covers {α : Type} (e : Edge) (n : Nat) (p : Verb α) : Prop := p.Affords e.takes (appends e.row) n

section
variable {e : Edge} {n : Nat} {α β : Type}

theorem unrecorded_spends (a : Act) (r : a.Res) (h : a.Unrecorded) : appends e.row ⟨a, r⟩ = false := by
  cases a with
  | sql q =>
    cases q with
    | appendAudit event => exact h.elim
    | _ => rfl
  | _ => rfl

theorem covers_silent {p : Verb α} (hp : p.All Act.Unrecorded) : Covers e n p :=
  Prog.affords_of_all unrecorded_spends hp

theorem covers_after {p : Verb α} {f : α → Verb β} (hp : p.All Act.Unrecorded) (hf : ∀ a, Covers e n (f a)) :
    Covers e n (p.bind f) := Prog.affords_after unrecorded_spends hp hf

theorem covers_stmt {q : Stmt} {k : Except SqlError q.Res → Verb α} (hq : Act.Unrecorded (.sql q))
    (hok : ∀ r, Covers e (n + (e.takes ⟨.sql q, .ok r⟩).toNat) (k (.ok r)))
    (herr : ∀ err, Covers e 0 (k (.error err))) : Covers e n (.act (.sql q) k) := by
  intro r
  rw [unrecorded_spends _ r hq]
  refine ⟨Nat.zero_le n, ?_⟩
  cases r with
  | ok r => exact hok r
  | error err => exact (herr err).mono (Nat.zero_le _)

theorem covers_append {event : AuditEvent} {k : Except SqlError Unit → Verb α}
    (hn : e.row event = true → 0 < n) (hk : ∀ r, Covers e (n - (e.row event).toNat) (k r)) :
    Covers e n (.act (.sql (.appendAudit event)) k) := by
  intro r
  cases r with
  | ok u =>
    refine ⟨?_, (hk (.ok u)).mono (Nat.sub_le_sub_right (Nat.le_add_right n _) _)⟩
    show (e.row event).toNat ≤ n
    cases hrow : e.row event with
    | false => exact Nat.zero_le n
    | true => exact hn hrow
  | error err => exact ⟨Nat.zero_le n, (hk (.error err)).mono ((Nat.sub_le n _).trans (Nat.le_add_right n _))⟩

theorem covers_query {q : Stmt} {f : q.Res → Verb α} (hq : Act.Unrecorded (.sql q))
    (hf : ∀ r, Covers e (n + (e.takes ⟨.sql q, .ok r⟩).toNat) (f r)) : Covers e n ((query q).bind f) :=
  covers_stmt hq hf fun _ => trivial

/-- The row of an edge that was taken and not yet recorded. -/
theorem covers_row (edge : Edge) {event : AuditEvent} {f : Unit → Verb α} (hrow : edge.row event = true)
    (hn : e = edge → 0 < n) (hf : Covers e 0 (f ())) : Covers e n ((query (.appendAudit event)).bind f) := by
  refine covers_append (fun h => hn (Edge.row_inj h hrow)) fun r => ?_
  cases r with
  | ok u => exact hf.mono (Nat.zero_le _)
  | error err => trivial

/-- A row of no edge. -/
theorem covers_other {event : AuditEvent} {f : Unit → Verb α} (h : e.row event = false)
    (hf : Covers e n (f ())) : Covers e n ((query (.appendAudit event)).bind f) := by
  refine covers_append (fun hrow => ?_) fun r => ?_
  · rw [h] at hrow
    cases hrow
  · rw [h]
    cases r with
    | ok u => exact hf
    | error err => trivial

theorem covers_unlisted {action actor : String} {user invite token : Option Uuid} {detail : Json}
    {f : Unit → Verb α} (h : action ∉ Edge.actions) (hf : Covers e n (f ())) :
    Covers e n ((audit action user invite token actor detail).bind f) :=
  covers_other (Edge.row_other h) hf

theorem covers_alone {p : Verb α} (h : Covers e n (p.bind .ret)) : Covers e n p := by
  rwa [Prog.bind_ret_right] at h

theorem covers_reply {p : Verb α} {f : α → Reply} (h : Covers e n p) : Covers e n (reply p f) :=
  h.bind fun _ => trivial

theorem covers_answered {p : Verb α} {ok : α → Response} {err : PortalError → Verb Response} (hp : Covers e n p)
    (herr : ∀ h, (err h).All Act.Unrecorded) : Covers e n (answered p ok err) := by
  refine Prog.Affords.bind hp.attempt fun r => ?_
  cases r with
  | ok a => trivial
  | error h =>
    cases h with
    | err h => exact covers_silent (herr h)
    | event name message => trivial
    | panicked message => trivial

theorem covers_extract {body : Body α} {handler : α → Verb Response} (h : ∀ b, Covers e n (handler b)) :
    Covers e n (extract body handler) := by
  cases body with
  | ok b => exact h b
  | error err => trivial

theorem row_invitation {edge : Edge} {actor : String} {user : Option Uuid} {detail : Json}
    (h : edge.subject.1 = "portal.portal_invitations") :
    edge.row (recordAudit edge.action (some actor) user (some edge.subject.2) none detail) = true := by
  rw [Edge.row_iff, h]
  exact ⟨rfl, names_invite⟩

theorem row_token {edge : Edge} {actor : String} {user invite : Option Uuid} {detail : Json}
    (h : edge.subject.1 = "portal.portal_tokens") :
    edge.row (recordAudit edge.action (some actor) user invite (some edge.subject.2) detail) = true := by
  rw [Edge.row_iff, h]
  exact ⟨rfl, names_token⟩

/-- A row about a principal names no bearer. -/
theorem row_bearers {actor : String} {user : Uuid} {detail : Json} :
    e.row (recordAudit "bearer_revoked" (some actor) (some user) none none detail) = false := by
  cases e <;> simp [Edge.row, Edge.action, Edge.subject, recordAudit]

theorem row_invitations {actor : String} {detail : Json} :
    e.row (recordAudit "invite_revoked" (some actor) none none none detail) = false := by
  cases e <;> simp [Edge.row, Edge.action, Edge.subject, recordAudit]

theorem covers_lifecycle {P : Portal} {label action : String} {env : Envelope} {user : Option Uuid} {sapiens : Uuid}
    (h : action ∉ Edge.actions) : Covers e n (P.lifecycleAudit label action env user sapiens) := by
  have hrow : e.row (lifecycleRow action env user sapiens) = false := Edge.row_other h
  refine covers_append (fun hspend => ?_) fun r => by cases r <;> trivial
  rw [show e.row (recordAudit action _ user none none _) = false from hrow] at hspend
  cases hspend

end

/-! ## The verbs -/

section
variable {e : Edge} {P : Portal} {user : Uuid} {α : Type}

theorem mintBearer_covers (user : Uuid) (ttl : Int) : Covers e 0 (P.mintBearer user ttl) := by
  refine covers_after (all_ofExcept _) fun _ => covers_after (all_step trivial) fun id =>
    covers_after (all_step trivial) fun nonce => covers_after (all_step trivial) fun now =>
    covers_after all_lifetime fun expires => covers_query trivial fun _ => ?_
  refine covers_row (.bearerMinted id) (row_token rfl) ?_ (covers_silent (all_ofExcept _))
  rintro rfl
  simp [Edge.takes]

theorem rotateBearer_covers (link : String) (ttl : Int) : Covers e 0 (P.rotateBearer link ttl) := by
  refine covers_after (verifyBearer_unrecorded link) fun principal => ?_
  split
  · trivial
  next parts hparts =>
    refine covers_after (all_step trivial) fun id => covers_after (all_step trivial) fun nonce =>
      covers_after (all_step trivial) fun now => covers_after all_lifetime fun expires =>
      covers_query trivial fun rotated => ?_
    cases rotated with
    | false => trivial
    | true =>
      refine covers_row (.bearerRotated parts.id) (row_token rfl) ?_ (covers_silent (all_ofExcept _))
      rintro rfl
      simp [Edge.takes]

theorem revokeAllBearers_covers (user : Uuid) (reason actor : String) :
    Covers e 0 (revokeAllBearers user reason actor) := by
  refine covers_query trivial fun revoked => ?_
  split
  · exact covers_other row_bearers trivial
  · trivial

theorem mintInvite_covers (email : String) (grantedBy : Option Uuid) (ttl : Int) :
    Covers e 0 (P.mintInvite email grantedBy ttl) := by
  unfold Portal.mintInvite
  dsimp only
  split
  · trivial
  refine covers_after (all_step trivial) fun id => covers_after (all_step trivial) fun nonce =>
    covers_after (all_step trivial) fun now => covers_after all_lifetime fun expires =>
    covers_query trivial fun _ => ?_
  refine covers_row (.inviteMinted id) (row_invitation rfl) ?_ (covers_silent (all_ofExcept _))
  rintro rfl
  simp [Edge.takes]

theorem redeem_covers (link email : String) : Covers e 0 (P.redeem link email) := by
  unfold Portal.redeem
  dsimp only
  split
  · trivial
  next parts hparts =>
    refine covers_after (all_query trivial) fun found => ?_
    split
    · trivial
    split
    · trivial
    refine covers_after (all_step trivial) fun now => ?_
    split
    · trivial
    refine covers_after (all_step trivial) fun user => covers_query trivial fun settled => ?_
    cases settled with
    | false => trivial
    | true =>
      refine covers_row (.inviteRedeemed parts.id) (row_invitation rfl) ?_
        (Prog.Affords.bind (mintBearer_covers user _) fun _ => trivial)
      rintro rfl
      simp [Edge.takes]

theorem refuseLogin_covers (owner : Option Uuid) (idKey ipKey : String) (detail : Json) :
    Covers e 0 (Portal.refuseLogin owner idKey ipKey detail : Verb α) :=
  covers_after (registerNow_unrecorded _) fun _ => covers_after (registerNow_unrecorded _) fun _ =>
    covers_unlisted (by decide) trivial

theorem verifyAndMint_covers (email presented ip : String) :
    Covers e 0 (P.verifyAndMint email presented ip "login_succeeded") := by
  refine covers_after (all_step trivial) fun now => covers_after (all_checkKey trivial) fun _ =>
    covers_after (all_checkKey trivial) fun _ => covers_after (all_query trivial) fun found => ?_
  split
  · exact refuseLogin_covers _ _ _ _
  split
  · exact refuseLogin_covers _ _ _ _
  refine covers_after (all_step trivial) fun verdict => ?_
  split
  · refine covers_after (all_step trivial) fun _ => covers_after (all_step trivial) fun _ =>
      covers_after (all_step trivial) fun _ => Prog.Affords.bind (mintBearer_covers _ _) fun _ => ?_
    exact covers_unlisted (by decide) trivial
  · exact refuseLogin_covers _ _ _ _
  · trivial
  · exact covers_unlisted (by decide) trivial

theorem login_covers (email presented ip : String) : Covers e 0 (P.login email presented ip) := by
  unfold Portal.login
  dsimp only
  split
  · trivial
  · exact verifyAndMint_covers _ _ _

theorem createPrincipal_covers (email : String) : Covers e 0 (P.createPrincipal email) := by
  refine covers_after (all_step trivial) fun id => covers_after (all_query trivial) fun inserted =>
    covers_after ?_ fun user => covers_unlisted (by decide) ?_
  · unfold Portal.createdPrincipal
    split
    · trivial
    · refine .bind (all_query trivial) fun found => ?_
      split <;> trivial
  · exact Prog.Affords.bind (mintBearer_covers user _) fun _ => trivial

theorem signup_covers (email presented ip : String) : Covers e 0 (P.signup email presented ip) := by
  unfold Portal.signup
  dsimp only
  split
  · trivial
  refine covers_after ⟨trivial, fun r => by cases r <;> trivial⟩ fun allowed => ?_
  cases allowed with
  | false => exact covers_unlisted (by decide) trivial
  | true =>
    refine covers_after (all_query trivial) fun found => ?_
    split
    · split
      · trivial
      · exact verifyAndMint_covers _ _ _
    · refine covers_after (checkNow_unrecorded _) fun _ => covers_after (checkNow_unrecorded _) fun _ =>
        covers_after (all_step trivial) fun verdict => ?_
      split
      · exact createPrincipal_covers _
      · exact covers_silent
          ((registerNow_unrecorded _).bind fun _ => (registerNow_unrecorded _).bind fun _ => trivial)
      · trivial
      · exact covers_unlisted (by decide) trivial

/-- The sweep of a revocation writes no row of an edge. -/
theorem sweep_aside (user : Uuid) (email reason actor : String) :
    Prog.All (fun a => ∀ r, appends e.row ⟨a, r⟩ = false)
      ((revokeAllBearers user reason actor).bind fun _ => (query (.revokePending email reason)).bind fun _ =>
        (.ret true : Verb Bool)) := by
  refine .bind (.bind (all_query fun _ => rfl) fun n => ?_) fun _ => .bind (all_query fun _ => rfl) fun _ => trivial
  split
  · refine .bind (all_query fun r => ?_) fun _ => trivial
    cases r with
    | ok u => exact row_bearers
    | error err => rfl
  · trivial

/-- Of a revocation that flipped, one row is still to be written. -/
theorem revokeAccess_covers {g : Halt → Halt} {f : Bool → Verb α} (reason actor : String)
    (hsame : Covers e 0 (f false))
    (hflip : ∀ n, (e = .accessRevoked user → 0 < n) → Covers e n (f true)) :
    Covers e 0 (((revokeAccess user reason actor).mapErr g).bind f) := by
  refine covers_stmt (q := .revokeUser user reason) trivial (fun revoked => ?_) fun _ => trivial
  cases revoked with
  | none => exact hsame.mono (Nat.zero_le _)
  | some email =>
    have hsweep := sweep_aside (e := e) user email reason actor
    refine Prog.affords_after (A := fun a => ∀ r, appends e.row ⟨a, r⟩ = false) (fun _ r h => h r)
      hsweep.mapErr fun flipped => ?_
    cases flipped with
    | false => exact hsame.mono (Nat.zero_le _)
    | true =>
      apply hflip
      rintro rfl
      simp [Edge.takes]

theorem handle_covers (env : Envelope) : Covers e 0 (P.handle env) := by
  unfold Portal.handle
  split
  · unfold Portal.onCreated
    split
    · trivial
    · split
      · trivial
      · refine covers_after (busQuery_all P trivial) fun stamped => ?_
        split <;> exact covers_lifecycle (by decide)
  split
  · unfold Portal.onUserGone
    split
    · trivial
    · split
      · trivial
      next sapiens hparse =>
        refine covers_after (busQuery_all P trivial) fun linked => ?_
        cases linked with
        | none => trivial
        | some user =>
          refine revokeAccess_covers _ _ trivial fun n hn => ?_
          refine covers_append (fun hrow => hn (Edge.row_inj hrow ?_)) fun r => by cases r <;> trivial
          exact Edge.row_iff.mpr ⟨rfl, rfl, rfl⟩
  · trivial

theorem route_covers (request : RouteRequest) : Covers e 0 (P.route request) := by
  cases request with
  | redeemInvite headers body =>
    refine covers_extract fun b => covers_answered (redeem_covers _ _) fun h => ?_
    cases h with
    | credentialRefused =>
      exact (registerNow_unrecorded _).bind fun _ => (registerNow_unrecorded _).bind fun _ => trivial
    | _ => trivial
  | login headers body =>
    exact covers_extract fun b => covers_answered (login_covers _ _ _) fun _ => trivial
  | signup headers body =>
    exact covers_extract fun b => covers_answered (signup_covers _ _ _) fun _ => trivial
  | rotate headers body =>
    refine covers_extract fun b => covers_after (checkNow_unrecorded _).attempt fun o => ?_
    split
    · trivial
    · trivial
    · refine covers_answered (rotateBearer_covers _ _) fun h => ?_
      cases h with
      | credentialRefused => exact (registerNow_unrecorded _).bind fun _ => trivial
      | _ => trivial

theorem serve_covers (request : Request) : Covers e 0 (P.serve request) := by
  cases request with
  | mintBearer user ttl => exact covers_reply (mintBearer_covers user ttl)
  | verifyBearer link => exact covers_reply (covers_silent (verifyBearer_unrecorded link))
  | rotateBearer link ttl => exact covers_reply (rotateBearer_covers link ttl)
  | revokeBearer token reason actor =>
    refine covers_reply (covers_query trivial fun revoked => ?_)
    cases revoked with
    | none => trivial
    | some user =>
      refine covers_alone (covers_row (.bearerRevoked token) (row_token rfl) ?_ trivial)
      rintro rfl
      simp [Edge.takes]
  | revokeAllBearers user reason actor => exact covers_reply (revokeAllBearers_covers user reason actor)
  | mintInvite email grantedBy ttl => exact covers_reply (mintInvite_covers email grantedBy ttl)
  | redeem link email => exact covers_reply (redeem_covers link email)
  | revokeInvite invite reason actor =>
    refine covers_reply (covers_query trivial fun n => ?_)
    split
    · trivial
    next hn =>
      obtain rfl : n = 1 := of_not_not hn
      refine covers_alone (covers_row (.inviteRevoked invite) (row_invitation rfl) ?_ trivial)
      rintro rfl
      simp [Edge.takes]
  | revokePendingForEmail email reason actor =>
    refine covers_reply (covers_query trivial fun n => ?_)
    split
    · exact covers_other row_invitations trivial
    · trivial
  | sweepExpired => exact covers_reply (covers_silent (all_query trivial))
  | setSignupPolicy enabled note officer =>
    refine covers_reply (covers_after (all_step trivial) fun id => covers_after (all_query trivial) fun _ => ?_)
    exact covers_alone (covers_unlisted (by decide) trivial)
  | login email presented ip => exact covers_reply (login_covers email presented ip)
  | signup email presented ip => exact covers_reply (signup_covers email presented ip)
  | revokeAccess user reason actor =>
    refine covers_reply (covers_query trivial fun revoked => ?_)
    cases revoked with
    | none => trivial
    | some email => exact Prog.affords_of_all (fun _ r h => h r) (sweep_aside user email reason actor)
  | myDetails principal => exact covers_reply (covers_silent (view_unrecorded _))
  | updateMyDetails principal patch => exact covers_reply (covers_silent (updateMyDetails_unrecorded _ _))
  | myAccessHistory principal limit => exact covers_reply (covers_silent (all_query trivial))
  | handle env => exact covers_reply (handle_covers env)
  | route request => exact covers_reply (route_covers request)

theorem verb_covers (P : Portal) (e : Edge) (t : PortalCall) : Covers e 0 (t.verb P) := by
  cases t with
  | request request => exact serve_covers request
  | customer call => exact covers_silent (customer_unrecorded call)
  | mintRecipient user email =>
    refine covers_reply (covers_after (all_ofExcept _) fun _ => covers_after (all_step trivial) fun now =>
      covers_after all_lifetime fun _ => ?_)
    exact covers_unlisted (by decide) trivial

end

end BackbonePortal
