import BackbonePortal.Verification

/-!
# Revocation is permanent

Once the status UPDATE of `revoke_access` has committed, no interleaving of
the module's calls takes it back, and every call that starts afterwards and
presents the principal's bearer, address or identity is refused.
-/

namespace BackbonePortal

open Proc Tables

/-! ## The refused calls -/

section
variable {P : Portal} {user : Uuid} {email : String} {w : World}

def HeldByOther (link : String) (user : Uuid) (w : World) : Prop :=
  ∃ other, BearerOf link other w.db ∧ other ≠ user

theorem HeldByOther.later {link : String} {w w' : World} (h : HeldByOther link user w) (hw : Grows w w') :
    HeldByOther link user w' := h.imp fun _ h => ⟨h.1.later hw, h.2⟩

theorem verifyBearer_refuses (link : String) (hr : Revoked user email w.db) :
    Ensures (fun o w => Refused o ∨ HeldByOther link user w) (P.verifyBearer link) w := by
  refine (verifyBearer_ensures P link w).weaken fun o w' h => h.imp_right fun ⟨p, _, hb, hn⟩ => ?_
  exact ⟨p.userId, hb, fun e => hn email (e ▸ hr)⟩

theorem rotateBearer_refuses (link : String) (ttlHours : Int) (hr : Revoked user email w.db) :
    Ensures (fun o w => Refused o ∨ HeldByOther link user w) (P.rotateBearer link ttlHours) w := by
  unfold Portal.rotateBearer
  refine ensures_bind (verifyBearer_refuses link hr) (fun p w' h => ?_) fun e w' h => ?_
  · rcases h with ⟨e, he, -⟩ | h
    · cases he
    · exact (ensures_stable (fun _ _ hw h => h.later hw) _ h).weaken fun _ _ h => .inr h
  · exact h.imp_left Refused.cast

theorem refuseLogin_refuses (u : Option Uuid) (idKey ipKey : String) (detail : Json) :
    Ensures (fun (o : Except Halt α) _ => Refused o) (Portal.refuseLogin u idKey ipKey detail) w := by
  simp only [Portal.refuseLogin, registerNow, Prog.bind_eq, Prog.bind_assoc]
  refine ensures_step fun _ _ _ => ensures_step fun _ _ _ => ensures_step fun _ _ _ =>
    ensures_step fun _ _ _ => ?_
  apply ensures_query (fun e _ _ => refused_db e)
  intro _ _ _ _ _
  exact ensures_refuse fun _ _ => ⟨_, rfl, trivial⟩

theorem login_refuses (raw presented ip : String) (he : P.normalizeEmail raw = email)
    (hr : Revoked user email w.db) : Ensures (fun o _ => Refused o) (P.login raw presented ip) w := by
  simp only [Portal.login, he]
  split
  · exact ensures_refuse fun _ _ => ⟨_, rfl, trivial⟩
  simp only [Portal.verifyAndMint, Prog.bind_eq]
  apply ensures_step
  intro now w₁ h₁
  apply ensures_checkKey (fun n _ _ => ⟨_, rfl, trivial⟩)
  intro w₂ h₂
  apply ensures_checkKey (fun n _ _ => ⟨_, rfl, trivial⟩)
  intro w₃ h₃
  apply ensures_query (fun e _ _ => refused_db e)
  intro w₄ h₄ i₄ r hq
  cases liveUserByEmail_revoked ((((hr.later h₁).later h₂).later h₃).later h₄) hq
  exact refuseLogin_refuses _ _ _ _

theorem view_refuses (hr : Revoked user email w.db) : Ensures (fun o _ => Refused o) (view user) w := by
  simp only [view, Prog.bind_eq]
  apply ensures_query (fun e _ _ => refused_db e)
  intro w₁ h₁ i₁ r hq
  cases viewRow_revoked (hr.later h₁) hq
  exact ensures_refuse fun _ _ => ⟨_, rfl, trivial⟩

theorem validate_error {patch : PortalDetailPatch} {e : PortalError} (h : patch.validate = .error e) :
    e.Refusal := by
  unfold PortalDetailPatch.validate at h
  split at h <;> cases h
  trivial

theorem updateMyDetails_refuses (p : PortalPrincipal) (patch : PortalDetailPatch)
    (hr : Revoked p.userId email w.db) : Ensures (fun o _ => Refused o) (updateMyDetails p patch) w := by
  simp only [updateMyDetails, Prog.bind_eq]
  split
  · exact ensures_refuse fun _ _ => ⟨_, rfl, trivial⟩
  cases hv : patch.validate with
  | error e => exact ensures_refuse fun _ _ => ⟨_, rfl, validate_error hv⟩
  | ok _ =>
    rw [ofExcept_ok, Prog.bind_ret]
    apply ensures_query (fun e _ _ => refused_db e)
    intro w₁ h₁ i₁ n hq
    rw [updateDetails_revoked (hr.later h₁) hq, if_pos Nat.zero_ne_one]
    exact ensures_refuse fun _ _ => ⟨_, rfl, trivial⟩

end

/-! ## Every call that starts afterwards -/

/-- The calls that present a bearer, the address or the identity of the principal. -/
def Request.Concerns (P : Portal) (user : Uuid) (email : String) (db : Db) : Request → Prop
  | .verifyBearer link => BearerOf link user db
  | .rotateBearer link _ => BearerOf link user db
  | .login raw _ _ => P.normalizeEmail raw = email
  | .myDetails p => p.userId = user
  | .updateMyDetails p _ => p.userId = user
  | _ => False

section
variable {P : Portal} {user : Uuid} {email : String}

theorem reply_refused {α : Type} {p : Verb α} {f : α → Reply} {w : World}
    (hp : Ensures (fun o _ => Refused o) p w) : Ensures (fun o _ => Refused o) (reply p f) w :=
  ensures_reply hp (fun _ _ h => by obtain ⟨_, he, -⟩ := h; cases he) fun _ _ h => h.cast

theorem reply_held {α : Type} {p : Verb α} {f : α → Reply} {w : World} {link : String}
    (hp : Ensures (fun o w => Refused o ∨ HeldByOther link user w) p w) :
    Ensures (fun o w => BearerOf link user w.db → Refused o) (reply p f) w := by
  refine ensures_reply hp (fun a w h w' hw hb => ?_) fun e w h hb => ?_
  · rcases h with ⟨_, he, -⟩ | h
    · cases he
    · obtain ⟨other, ho, hne⟩ := h.later hw
      exact absurd (ho.unique hb) hne
  · rcases h with h | ⟨other, ho, hne⟩
    · exact h.cast
    · exact absurd (ho.unique hb) hne

theorem serve_refuses (t : Request) {w : World} (hr : Revoked user email w.db) :
    Ensures (fun o w => t.Concerns P user email w.db → Refused o) (P.serve t) w := by
  cases t with
  | verifyBearer link => exact reply_held (verifyBearer_refuses link hr)
  | rotateBearer link ttl => exact reply_held (rotateBearer_refuses link ttl hr)
  | login raw presented ip =>
    by_cases he : P.normalizeEmail raw = email
    · exact (reply_refused (login_refuses raw presented ip he hr)).weaken fun _ _ h _ => h
    · exact (ensures_trivial _).weaken fun _ _ _ h => absurd h he
  | myDetails p =>
    by_cases hp : p.userId = user
    · subst hp
      exact (reply_refused (view_refuses hr)).weaken fun _ _ h _ => h
    · exact (ensures_trivial _).weaken fun _ _ _ h => absurd h hp
  | updateMyDetails p patch =>
    by_cases hp : p.userId = user
    · subst hp
      exact (reply_refused (updateMyDetails_refuses p patch hr)).weaken fun _ _ h _ => h
    · exact (ensures_trivial _).weaken fun _ _ _ h => absurd h hp
  | _ => exact (ensures_trivial _).weaken fun _ _ _ h => h.elim

end

theorem revokeUser_committed {i : Env} {db : Db} {user : Uuid} {reason email : String}
    (h : ((Stmt.revokeUser user reason).answer i db).1 = .ok (some email)) :
    ∃ u, ((Stmt.revokeUser user reason).answer i db).2.users.get user = some u ∧ u.status = .revoked ∧
      u.live = true ∧ u.email = email ∧ u.revokedAt = some i.now.stored ∧ u.revocationReason = some reason ∧
      ∃ v, db.users.get user = some v ∧ v.status ≠ .revoked ∧ u = v.revoke reason i.now.stored := by
  obtain ⟨-, hq⟩ := Stmt.answer_ok h
  obtain ⟨users, hu, ha, hdb⟩ := Db.updateUsers_ok hq
  simp only [Bool.and_assoc] at ha
  rw [db.users_with_id] at ha
  cases hg : (db.users.get user).filter fun u => u.status ≠ .revoked && u.live with
  | none => rw [hg] at ha; cases ha
  | some v =>
    obtain ⟨hv, hp⟩ := Option.filter_eq_some_iff.mp hg
    rw [hg] at ha
    simp only [Bool.and_eq_true, decide_eq_true_eq] at hp
    have hid := (Table.get_eq_some.mp hv).2
    have hu' := Table.update_get hu user
    rw [hv, Option.map_some, if_pos (by simp [show v.id = user from hid, hp])] at hu'
    rw [hdb]
    refine ⟨_, hu', rfl, hp.2, ?_, rfl, rfl, v, hv, hp.1, rfl⟩
    exact (Option.some.inj ha).symm

/-- **Revocation is permanent and effective.** Whatever was in flight and
whatever starts afterwards, in any interleaving. -/
theorem revocation_is_final (P : Portal) (pool : Pool portalMachine Halt Reply Request) (j : Nat)
    (call : Call portalSig Halt Reply Request) (user : Uuid) (reason email : String)
    (k : Except SqlError (Option String) → Verb Reply) (i : Env) (hcall : pool.calls[j]? = some call)
    (hstep : call.rest = .act (.sql (.revokeUser user reason)) k)
    (committed : ((Stmt.revokeUser user reason).answer i pool.world.db).1 = .ok (some email)) :
    let flipped := pool.next P.serve (.step j i)
    ∃ u, flipped.world.db.users.get user = some u ∧ u.status = .revoked ∧ u.email = email ∧
      u.revokedAt.isSome ∧ u.revocationReason = some reason ∧
      ∀ ms : List (Move portalMachine Request),
        let later := flipped.play P.serve ms
        (∃ v, later.world.db.users.get user = some v ∧ v.status = .revoked ∧ v.revokedAt = u.revokedAt ∧
          v.revocationReason = u.revocationReason ∧ v.details = u.details) ∧
        ∀ n c o, flipped.calls.length ≤ n → later.calls[n]? = some c → c.outcome = some o →
          c.tag.Concerns P user email later.world.db → Refused o := by
  intro flipped
  have hw : flipped.world = (Act.exec (.sql (.revokeUser user reason)) i pool.world).2 := by
    rw [show flipped = _ from Pool.next_step P.serve hcall hstep i]
  obtain ⟨u, hu, hs, hl, he, hat, hre, -⟩ := revokeUser_committed committed
  have hu' : flipped.world.db.users.get user = some u := by rw [hw]; exact hu
  refine ⟨u, hu', hs, he, hat ▸ rfl, hre, fun ms => ?_⟩
  obtain ⟨hG, -, hQ⟩ := Pool.guards_play (M := portalMachine) (G := Grows) P.serve
    (fun w => Revoked user email w.db) flipped
    (fun n t o w => flipped.calls.length ≤ n → t.Concerns P user email w.db → Refused o) Grows.refl
    (fun _ _ _ => Grows.trans) (fun a i w hr _ => ⟨grows_exec a i w, hr.later (grows_exec a i w)⟩)
    (fun n t w _ hr => (serve_refuses t hr).weaken fun _ _ h _ => h) ⟨u, hu', hs, hl, he⟩
    (fun n c hc => (ensures_trivial c.rest).weaken fun _ _ _ hn =>
      absurd (List.getElem?_eq_some_iff.mp hc).1 (Nat.not_lt.mpr hn)) ms
  obtain ⟨v, hv, -, -, -, hk⟩ :=
    (show Evolves flipped.world.db (flipped.play P.serve ms).world.db from hG).users.get hu'
  obtain ⟨k1, k2, k3, k4⟩ := hk hs
  exact ⟨⟨v, hv, k1, k2, k3, k4⟩, fun n c o hn hc ho => hQ n c o hc ho hn⟩

def Probe.revocation : Call portalSig Halt Reply Request :=
  ⟨.revokeAccess (uuid 2) "offboarded" "officer", [],
    portal.serve (.revokeAccess (uuid 2) "offboarded" "officer")⟩

theorem revocation_is_final_probe :
    ∃ u, ((⟨Probe.world Probe.admitted, [Probe.revocation]⟩ : Pool portalMachine Halt Reply Request).next
        Probe.portal.serve (.step 0 Probe.env)).world.db.users.get (Probe.uuid 2) = some u ∧
      u.status = .revoked ∧ u.revocationReason = some "offboarded" := by
  obtain ⟨u, hu, hs, -, -, hr, -⟩ := revocation_is_final Probe.portal
    ⟨Probe.world Probe.admitted, [Probe.revocation]⟩ 0 Probe.revocation (Probe.uuid 2)
      "offboarded" Probe.email _
    Probe.env rfl rfl (by decide +kernel)
  exact ⟨u, hu, hs, hr⟩

end BackbonePortal
