import BackbonePortal.Alone
import BackbonePortal.InviteOneShot

/-!
# Writes and their audit rows

Each audited verb commits its write before it opens the audit transaction, and
a redemption commits before it mints. A failure in between leaves the write.
-/

namespace BackbonePortal

open Proc Tables

/-! ## The redemption -/

/-- If `redeem` fails, it has left the invitations, the principals and the
bearers as they were. -/
def Portal.AllOrNothing (P : Portal) (link email : String) (i : Nat → Env) (w : World) : Prop :=
  let r := (P.redeem link email).run portalMachine i w
  (∃ e, r.1 = .error (.err e)) →
    r.2.db.invites = w.db.invites ∧ r.2.db.users = w.db.users ∧ r.2.db.tokens = w.db.tokens

/-- A step after the redemption transaction fails: the audit row, the insertion
of the first bearer, or the audit row of its mint. -/
def FailsAfterCommit (i : Nat → Env) (db : Db) : Prop :=
  (i 4).fault ≠ none ∨
    Lasts 3600 defaultBearerTtlHours (i 7).now ∧
      ¬(db.tokens.get (i 5).uuid = none ∧ (∀ t ∈ db.tokens.rows, t.tokenNonce ≠ nonceOf (i 6).nonce) ∧
        (i 8).fault = none ∧ (i 9).fault = none)

section
variable {P : Portal} {w : World}

theorem afterRedemption_alone (user invite : Uuid) (email : String) (i : Nat → Env) (hs : P.bearerSecret ≠ [])
    (hu : (w.db.users.get user).isSome) :
    (∃ e, ((P.afterRedemption user invite email).run portalMachine i w).1 = .error (.err e)) ↔
      (i 0).fault ≠ none ∨ Lasts 3600 defaultBearerTtlHours (i 3).now ∧
        ¬(w.db.tokens.get (i 1).uuid = none ∧ (∀ t ∈ w.db.tokens.rows, t.tokenNonce ≠ nonceOf (i 2).nonce) ∧
          (i 4).fault = none ∧ (i 5).fault = none) := by
  unfold Portal.afterRedemption
  rw [Prog.bind_eq]
  rcases run_query i w (.appendAudit _) _ with ⟨e, he, hrun⟩ | ⟨r, hr, hrun⟩
  · rw [hrun]
    have hf : (i 0).fault ≠ none := fun hf => by
      obtain ⟨r, hr⟩ := appendAudit_ok.mpr hf
      cases hr.symm.trans he
    exact ⟨fun _ => .inl hf, fun _ => ⟨_, rfl⟩⟩
  rw [hrun]
  have hf : (i 0).fault = none := appendAudit_ok.mp ⟨r, hr⟩
  obtain ⟨-, hq⟩ := Stmt.answer_ok hr
  have hframe := exec_framed _ hq
  have htokens := hframe.tokens (by simp [Stmt.writes])
  have husers := hframe.users (by simp [Stmt.writes])
  generalize ((Stmt.appendAudit _).answer (i 0) w.db).2 = db' at htokens husers ⊢
  simp only [Prog.bind_eq, Prog.pure_eq, Prog.run_bind_ret, hf, ne_eq, not_true_eq_false, false_or]
  have hfits : MintFits user (from_ 1 i) db' ↔ w.db.tokens.get (i 1).uuid = none ∧
      (∀ t ∈ w.db.tokens.rows, t.tokenNonce ≠ nonceOf (i 2).nonce) ∧ (i 4).fault = none ∧
      (i 5).fault = none := by
    rw [← htokens]
    exact ⟨fun h => ⟨h.fits.key, h.fits.selector, h.inserted, h.audited⟩,
      fun h => ⟨⟨h.1, h.2.1, husers ▸ hu⟩, h.2.2.1, h.2.2.2⟩⟩
  rw [← hfits]
  rcases mintBearer_alone hs user defaultBearerTtlHours (from_ 1 i)
    { w with db := db', clock := (i 0).now } with
    ⟨hl, m, hm⟩ | ⟨hl, hfit, link, hm⟩ | ⟨hl, hfit, e, hm⟩
  · rw [hm]
    exact ⟨by rintro ⟨e, ⟨⟩⟩, fun h => absurd h.1 hl⟩
  · rw [hm]
    exact ⟨by rintro ⟨e, ⟨⟩⟩, fun h => absurd hfit h.2⟩
  · rw [hm]
    exact ⟨fun _ => ⟨hl, hfit⟩, fun _ => ⟨e, rfl⟩⟩

end

def Probe.refusedAudit : Nat → Env := fun n =>
  { env with fault := if n = 4 then some "scope has no unit" else none }

def Probe.halfRedeemed : Except Halt (Uuid × String) × World :=
  (portal.redeem inviteLink email).run portalMachine refusedAudit (world invited)

/-- A bearer is new or spent, or an invitation new or settled. -/
def Db.Departs (db db' : Db) : Prop :=
  db.tokens.Departs (fun t => t.status ≠ .active) db'.tokens ∨
    db.invites.Departs (fun v => v.status ≠ .pending) db'.invites

section
variable {α : Type} {db db₀ db' db₁ : Db} {now : Instant} {scan : Nat} {a : α}

theorem Db.Departs.mono (h₀ : Evolves db₀ db) (h : db.Departs db') (h₁ : Evolves db' db₁) :
    db₀.Departs db₁ := by
  refine h.imp (fun h => h.mono ?_ h₀.tokens h₁.tokens) fun h => h.mono ?_ h₀.invites h₁.invites
  · exact fun t s hts ht => (hts.2.2.2.2 ht).1 ▸ ht
  · exact fun v w hvw hv => (hvw.2.2.2.2 hv).1 ▸ hv

theorem Db.Departs.ne (h : db.Departs db') : db'.tables ≠ db.tables := by
  intro he
  simp only [Db.tables, Prod.mk.injEq] at he
  exact h.elim (fun h => h.ne he.2.1) fun h => h.ne he.2.2.1

theorem insertToken_departs {t : PortalToken} (h : db.insertToken t = .ok db') : db.Departs db' := by
  obtain ⟨tokens, hi, -, rfl⟩ := Db.insertToken_ok h
  exact .inl (Table.insert_departs hi)

theorem rotateToken_departs {id successor user : Uuid} {nonce : String} {expires : Instant}
    (h : (Stmt.rotateToken id successor user nonce expires).exec now scan db = .ok (true, db')) :
    db.Departs db' := by
  rcases exec_rotateToken h with ⟨hb, -⟩ | ⟨spent, t, -, ht, hid, hact, hu, hi⟩
  · cases hb
  have hspent : db.Departs { db with tokens := spent } :=
    .inl (Table.update_departs hu ht (by simp [hid, hact]) (by simp [hact]) (by simp [PortalToken.rotate]))
  exact hspent.mono (.refl _) (insertToken_evolves hi)

theorem redeemInvite_departs {id user : Uuid} {email : String}
    (h : (Stmt.redeemInvite id user email).exec now scan db = .ok (true, db')) : db.Departs db' := by
  rcases exec_redeemInvite h with ⟨hb, -⟩ | ⟨settled, v, -, hv, hid, hpend, hu, hi⟩
  · cases hb
  have hsettled : db.Departs { db with invites := settled } :=
    .inr (Table.update_departs hu hv (by simp [hid, hpend]) (by simp [hpend]) (by simp [PortalInvite.redeem]))
  exact hsettled.mono (.refl _) (insertUser_evolves hi)

theorem updateTokens_departs {p : PortalToken → Bool} {f : PortalToken → PortalToken}
    {hk : ∀ t, tokenSchema.key (f t) = tokenSchema.key t} {hi : ∀ t, tokenSchema.idx (f t) = tokenSchema.idx t}
    {answer : List PortalToken → α} (h : db.updateTokens p f hk hi answer = .ok (a, db'))
    (hf : ∀ t, p t = true → t.status = .active ∧ (f t).status ≠ .active) (ha : a ≠ answer []) :
    db.Departs db' := by
  obtain ⟨tokens, hu, rfl, rfl⟩ := Db.updateTokens_ok h
  cases hm : db.tokens.rows.filter p with
  | nil => rw [hm] at ha; exact absurd rfl ha
  | cons t ts =>
    obtain ⟨ht, hp⟩ := List.mem_filter.mp (hm ▸ List.mem_cons_self : t ∈ db.tokens.rows.filter p)
    exact .inl (Table.update_departs hu ht hp (fun hn => hn (hf t hp).1) (hf t hp).2)

theorem updateInvites_departs {p : PortalInvite → Bool} {f : PortalInvite → PortalInvite}
    {hk : ∀ v, inviteSchema.key (f v) = inviteSchema.key v}
    {hi : ∀ v, inviteSchema.idx (f v) = inviteSchema.idx v} {answer : List PortalInvite → α}
    (h : db.updateInvites p f hk hi answer = .ok (a, db'))
    (hf : ∀ v, p v = true → v.status = .pending ∧ (f v).status ≠ .pending) (ha : a ≠ answer []) :
    db.Departs db' := by
  obtain ⟨invites, hu, rfl, rfl⟩ := Db.updateInvites_ok h
  cases hm : db.invites.rows.filter p with
  | nil => rw [hm] at ha; exact absurd rfl ha
  | cons v vs =>
    obtain ⟨hv, hp⟩ := List.mem_filter.mp (hm ▸ List.mem_cons_self : v ∈ db.invites.rows.filter p)
    exact .inr (Table.update_departs hu hv hp (fun hn => hn (hf v hp).1) (hf v hp).2)

end

/-! ## The audited verbs -/

/-- An audit row is written after a write that departs from `db`. -/
def AuditsWrite (db : Db) : Act → World → Prop
  | .sql (.appendAudit _), w => db.Departs w.db
  | _, _ => True

section
variable {P : Portal} {α : Type} {w : World}

theorem Act.Quiet.audits {db : Db} {a : Act} {w : World} (h : a.Quiet) : AuditsWrite db a w := by
  cases a with
  | sql q => cases q <;> trivial
  | _ => trivial

theorem AuditsWrite.of_departs {db : Db} {w : World} (a : Act) (h : db.Departs w.db) : AuditsWrite db a w := by
  cases a with
  | sql q => cases q <;> first | exact h | trivial
  | _ => trivial

theorem audits_after {db : Db} (h : db.Departs w.db) (p : Verb α) :
    Guarded (AuditsWrite db) (fun _ _ => True) p w :=
  guarded_after (fun _ _ hg h => h.mono (.refl _) hg) (fun a _ h => .of_departs a h) p h

theorem mintBearer_audits (user : Uuid) (ttl : Int) :
    Guarded (AuditsWrite w.db) (fun _ _ => True) (P.mintBearer user ttl) w := by
  unfold Portal.mintBearer
  cases P.secret with
  | error e => exact fun _ _ => trivial
  | ok _ =>
    refine guarded_step (fun _ _ => trivial) fun id w₁ h₁ =>
      guarded_step (fun _ _ => trivial) fun nonce w₂ h₂ =>
      guarded_step (fun _ _ => trivial) fun now w₃ h₃ =>
        guarded_lifetime (fun _ _ _ => trivial) fun expires => ?_
    refine guarded_query (fun _ _ => trivial) (fun _ _ _ => trivial) fun w₄ h₄ i r hr => audits_after ?_ _
    exact (insertToken_departs (exec_insertToken (Stmt.answer_ok hr).2)).mono
      (((h₁.trans h₂).trans h₃).trans h₄) (.refl _)

theorem rotateBearer_audits (link : String) (ttl : Int) :
    Guarded (AuditsWrite w.db) (fun _ _ => True) (P.rotateBearer link ttl) w := by
  unfold Portal.rotateBearer
  refine guarded_bind ((ensures_stable (I := Grows w) (fun _ _ hg h => h.trans hg) (P.verifyBearer link)
    (Grows.refl w)).guarded (fun _ _ h => h.audits) (verifyBearer_all P (fun _ h => h.quiet) link))
    (fun p w₀ h₀ => ?_)
    fun _ _ _ => trivial
  split
  · exact fun _ _ => trivial
  refine guarded_step (fun _ _ => trivial) fun id w₁ h₁ => guarded_step (fun _ _ => trivial) fun nonce w₂ h₂ =>
    guarded_step (fun _ _ => trivial) fun now w₃ h₃ => guarded_lifetime (fun _ _ _ => trivial) fun expires => ?_
  apply guarded_query (fun _ _ => trivial) (fun _ _ _ => trivial)
  intro w₄ h₄ i rotated hr
  cases rotated with
  | false => exact fun _ _ => trivial
  | true =>
    refine audits_after ?_ _
    exact (rotateToken_departs (Stmt.answer_ok hr).2).mono
      ((((h₀.trans h₁).trans h₂).trans h₃).trans h₄) (.refl _)

theorem revokeBearer_audits (id : Uuid) (reason actor : String) :
    Guarded (AuditsWrite w.db) (fun _ _ => True) (revokeBearer id reason actor) w := by
  unfold revokeBearer
  apply guarded_query (fun _ _ => trivial) (fun _ _ _ => trivial)
  intro w₁ h₁ i r hr
  cases r with
  | none => exact fun _ _ => trivial
  | some user =>
    refine audits_after ?_ _
    refine (updateTokens_departs (Stmt.answer_ok hr).2 (fun t ht => ?_) (by simp)).mono h₁ (.refl _)
    simp only [Bool.and_eq_true, decide_eq_true_eq] at ht
    exact ⟨ht.2, by simp [PortalToken.revoke]⟩

theorem revokeAllBearers_audits (user : Uuid) (reason actor : String) :
    Guarded (AuditsWrite w.db) (fun _ _ => True) (revokeAllBearers user reason actor) w := by
  unfold revokeAllBearers
  apply guarded_query (fun _ _ => trivial) (fun _ _ _ => trivial)
  intro w₁ h₁ i n hr
  split
  next hn =>
    refine audits_after ?_ _
    refine (updateTokens_departs (Stmt.answer_ok hr).2 (fun t ht => ?_) (Nat.ne_of_gt hn)).mono h₁ (.refl _)
    simp only [Bool.and_eq_true, decide_eq_true_eq] at ht
    exact ⟨ht.2, by simp [PortalToken.revoke]⟩
  next => exact fun _ _ => trivial

theorem mintInvite_audits (email : String) (grantedBy : Option Uuid) (ttl : Int) :
    Guarded (AuditsWrite w.db) (fun _ _ => True) (P.mintInvite email grantedBy ttl) w := by
  unfold Portal.mintInvite
  dsimp only
  split
  · exact fun _ _ => trivial
  refine guarded_step (fun _ _ => trivial) fun id w₁ h₁ => guarded_step (fun _ _ => trivial) fun nonce w₂ h₂ =>
    guarded_step (fun _ _ => trivial) fun now w₃ h₃ => guarded_lifetime (fun _ _ _ => trivial) fun expires => ?_
  refine guarded_query (fun _ _ => trivial) (fun _ _ _ => trivial) fun w₄ h₄ i r hr => audits_after ?_ _
  obtain ⟨invites, hi, hdb⟩ := exec_insertInvite (Stmt.answer_ok hr).2
  refine Db.Departs.mono (((h₁.trans h₂).trans h₃).trans h₄) ?_ (.refl _)
  show w₄.db.Departs ((Stmt.insertInvite ..).answer i w₄.db).2
  rw [hdb]
  exact .inr (Table.insert_departs hi)

theorem redeem_audits (link email : String) :
    Guarded (AuditsWrite w.db) (fun _ _ => True) (P.redeem link email) w := by
  unfold Portal.redeem
  dsimp only
  split
  · exact fun _ _ => trivial
  next parts _ =>
    apply guarded_query (fun _ _ => trivial) (fun _ _ _ => trivial)
    intro w₁ h₁ i₁ row _
    replace h₁ := h₁.trans (grows_exec (.sql (.inviteById parts.id)) i₁ w₁)
    split
    · exact fun _ _ => trivial
    split
    · exact fun _ _ => trivial
    apply guarded_step (fun _ _ => trivial)
    intro now w₂ h₂
    split
    · exact fun _ _ => trivial
    apply guarded_step (fun _ _ => trivial)
    intro user w₃ h₃
    apply guarded_query (fun _ _ => trivial) (fun _ _ _ => trivial)
    intro w₄ h₄ i redeemed hr
    cases redeemed with
    | false => exact fun _ _ => trivial
    | true =>
      refine audits_after ?_ _
      exact (redeemInvite_departs (Stmt.answer_ok hr).2).mono (((h₁.trans h₂).trans h₃).trans h₄) (.refl _)

theorem revokeInvite_audits (id : Uuid) (reason actor : String) :
    Guarded (AuditsWrite w.db) (fun _ _ => True) (revokeInvite id reason actor) w := by
  unfold revokeInvite
  apply guarded_query (fun _ _ => trivial) (fun _ _ _ => trivial)
  intro w₁ h₁ i n hr
  split
  next => exact fun _ _ => trivial
  next hn =>
    refine audits_after ?_ _
    refine (updateInvites_departs (Stmt.answer_ok hr).2 (fun v hv => ?_)
      (by simp [not_not.mp hn])).mono h₁ (.refl _)
    simp only [Bool.and_eq_true, decide_eq_true_eq] at hv
    exact ⟨hv.2, by simp [PortalInvite.revoke]⟩

theorem revokePendingForEmail_audits (email reason actor : String) :
    Guarded (AuditsWrite w.db) (fun _ _ => True) (P.revokePendingForEmail email reason actor) w := by
  unfold Portal.revokePendingForEmail
  apply guarded_query (fun _ _ => trivial) (fun _ _ _ => trivial)
  intro w₁ h₁ i n hr
  split
  next hn =>
    refine audits_after ?_ _
    refine (updateInvites_departs (Stmt.answer_ok hr).2 (fun v hv => ?_) (Nat.ne_of_gt hn)).mono h₁ (.refl _)
    simp only [Bool.and_eq_true, decide_eq_true_eq] at hv
    exact ⟨hv.2, by simp [PortalInvite.revoke]⟩
  next => exact fun _ _ => trivial

/-- The audited verbs over the bearers and the invitations. -/
def Request.AuditsCredential : Request → Prop
  | .mintBearer .. | .rotateBearer .. | .revokeBearer .. | .revokeAllBearers .. => True
  | .mintInvite .. | .redeem .. | .revokeInvite .. | .revokePendingForEmail .. => True
  | _ => False

theorem audits_reply {p : Verb α} {f : α → Reply} {db : Db}
    (hp : Guarded (AuditsWrite db) (fun _ _ => True) p w) :
    Guarded (AuditsWrite db) (fun _ _ => True) (reply p f) w :=
  guarded_bind hp (fun _ _ _ _ _ => trivial) fun _ _ _ => trivial

theorem serve_audits {t : Request} (ht : t.AuditsCredential) :
    Guarded (AuditsWrite w.db) (fun _ _ => True) (P.serve t) w := by
  cases t with
  | mintBearer user ttl => exact audits_reply (mintBearer_audits user ttl)
  | rotateBearer link ttl => exact audits_reply (rotateBearer_audits link ttl)
  | revokeBearer id reason actor => exact audits_reply (revokeBearer_audits id reason actor)
  | revokeAllBearers user reason actor => exact audits_reply (revokeAllBearers_audits user reason actor)
  | mintInvite email grantedBy ttl => exact audits_reply (mintInvite_audits email grantedBy ttl)
  | redeem link email => exact audits_reply (redeem_audits link email)
  | revokeInvite id reason actor => exact audits_reply (revokeInvite_audits id reason actor)
  | revokePendingForEmail email reason actor =>
    exact audits_reply (revokePendingForEmail_audits email reason actor)
  | _ => exact ht.elim

end

def auditFailed : Event portalSig → Bool
  | ⟨.sql (.appendAudit _), .error _⟩ => true
  | _ => false

theorem auditFailed_write {db : Db} {ev : Event portalSig} {w : World} (h : auditFailed ev = true)
    (ha : AuditsWrite db ev.act w) : db.Departs w.db := by
  obtain ⟨a, r⟩ := ev
  cases a with
  | sql q => cases q <;> first | exact ha | cases h
  | _ => cases h

theorem setSignupPolicy_leaves {enabled : Bool} {note : Option String} {officer : Option Uuid} {i : Nat → Env}
    {w : World} {f : Unit → Reply}
    (hfail : ((reply (setSignupPolicy enabled note officer) f).trace portalMachine i w).any
      auditFailed = true) :
    ((reply (setSignupPolicy enabled note officer) f).run portalMachine i w).2.db.policies.rows =
      [{ id := (i 0).uuid, enabled, note, updatedBy := officer, metadata := .inserted (i 1).now.stored }] := by
  let tail : Unit → Verb Reply := fun _ => reply (audit "policy_changed" none none none
    ((officer.map Uuid.display).getD "system")
    (.object [("enabled", .bool enabled), ("note", Json.option .str note)])) f
  have hrun : (reply (setSignupPolicy enabled note officer) f).run portalMachine i w =
      ((query (.replacePolicy (i 0).uuid enabled note officer)).bind tail).run portalMachine (from_ 1 i)
        { w with clock := (i 0).now } := by
    simp only [reply, setSignupPolicy, Prog.bind_eq, Prog.bind_assoc, run_newUuid, tail]
  have htrace : (reply (setSignupPolicy enabled note officer) f).trace portalMachine i w =
      ⟨.newUuid, (i 0).uuid⟩ ::
      ((query (.replacePolicy (i 0).uuid enabled note officer)).bind tail).trace portalMachine (from_ 1 i)
        { w with clock := (i 0).now } := by
    simp only [reply, setSignupPolicy, Prog.bind_eq, Prog.bind_assoc, tail]
    rfl
  rw [hrun]
  rw [htrace] at hfail
  rcases run_query (from_ 1 i) { w with clock := (i 0).now }
    (.replacePolicy (i 0).uuid enabled note officer) tail with
    ⟨e, he, -⟩ | ⟨r, hr, hrun⟩
  · rw [trace_query_error _ _ he] at hfail
    cases hfail
  · rw [hrun]
    obtain ⟨policies, hrows, hdb⟩ := exec_replacePolicy (Stmt.answer_ok hr).2
    -- the audit row is not in the policy table
    have hspares : (tail r).All (Act.Spares .policies) :=
      .bind (all_query (by simp [Act.Spares, Stmt.writes])) fun _ => trivial
    exact (congrArg Table.rows (Eq.trans (run_spares hspares _ _) (congrArg Db.policies hdb))).trans hrows

/-- Every verb that writes an audit row for a write of its own. -/
def Request.Audited : Request → Prop
  | .setSignupPolicy .. => True
  | t => t.AuditsCredential

/-- **An audited write outlives its refused audit**, whatever the call and the
state it starts in. -/
theorem audited_write_outlives_its_audit (P : Portal) (t : Request) (ht : t.Audited) (i : Nat → Env) (w : World)
    (hfresh : ∀ enabled note officer, t = .setSignupPolicy enabled note officer →
      w.db.policies.get (i 0).uuid = none)
    (hfail : ((P.serve t).trace portalMachine i w).any auditFailed = true) :
    ((P.serve t).run portalMachine i w).2.db.tables ≠ w.db.tables := by
  by_cases hc : t.AuditsCredential
  · obtain ⟨ev, hev, hf⟩ := List.any_eq_true.mp hfail
    obtain ⟨w', -, ha, hl⟩ := (serve_audits hc).trace i ev hev
    exact ((auditFailed_write hf ha).mono (.refl _) hl).ne
  · cases t with
    | setSignupPolicy enabled note officer =>
      intro he
      have hpolicies := congrArg (fun tables => tables.2.2.2) he
      have hrows := (congrArg Table.rows hpolicies).symm.trans (setSignupPolicy_leaves hfail)
      exact Table.get_eq_none.mp (hfresh _ _ _ rfl) _ (hrows ▸ List.mem_singleton_self _) rfl
    | _ => exact absurd ht hc

namespace Probe

def refusedAt (n : Nat) (uuid : Uuid) : Nat → Env := fun k =>
  { env with uuid, nonce := 7, fault := if k = n then some "scope has no unit" else none }

def rotatedInVain : Except Halt Reply × World :=
  (portal.serve (.rotateBearer bearerLink 24)).run portalMachine (refusedAt 8 (uuid 4)) (world admitted)

def openedInVain : Except Halt Reply × World :=
  (portal.serve (.setSignupPolicy true none none)).run portalMachine (refusedAt 2 (uuid 5)) (world Db.empty)

end Probe

/-- A rotation that answers an error has spent the presented bearer, and a
policy change that answers an error has opened signup. -/
theorem refused_audit_keeps_the_write :
    Probe.rotatedInVain.1.toOption.isNone ∧
    Probe.rotatedInVain.2.db.tokens.rows.map (·.status) = [.rotated, .active] ∧
    ((Probe.portal.verifyBearer Probe.bearerLink).run portalMachine (fun _ => Probe.env)
      Probe.rotatedInVain.2).1 =
      .error (.err .credentialRefused) ∧
    Probe.openedInVain.1.toOption.isNone ∧ Probe.openedInVain.2.db.policies.rows.map (·.enabled) = [true] := by
  rw [Probe.rotatedInVain.eq_1, serve_rotateBearer, Portal.rotateBearer.eq_1, Portal.verifyBearer.eq_1,
    Probe.parse_bearerLink]
  decide +kernel

theorem audited_write_outlives_its_audit_probe :
    ((Probe.portal.serve (.rotateBearer Probe.bearerLink 24)).run portalMachine
      (Probe.refusedAt 8 (Probe.uuid 4))
      (Probe.world Probe.admitted)).2.db.tables ≠ (Probe.world Probe.admitted).db.tables := by
  refine audited_write_outlives_its_audit Probe.portal (.rotateBearer Probe.bearerLink 24) trivial
    (Probe.refusedAt 8 (Probe.uuid 4)) (Probe.world Probe.admitted) (fun _ _ _ h => nomatch h) ?_
  rw [serve_rotateBearer, Portal.rotateBearer.eq_1, Portal.verifyBearer.eq_1, Probe.parse_bearerLink]
  decide +kernel

end BackbonePortal
