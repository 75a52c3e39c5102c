import BackbonePortal.Alone
import BackbonePortal.Verification

/-!
# Re-access after a revocation

A revoked principal keeps its row, and a live row keeps its address. The
redemption transaction of a new invitation for that address therefore breaks
the unique index, whatever the invitation.
-/

namespace BackbonePortal

open Proc Tables

section
variable {P : Portal} {user : Uuid} {email : String}

theorem Revoked.sole {db : Db} (hr : Revoked user email db) :
    ∀ u ∈ db.users.rows, u.live = true → u.email = email → u.id = user ∧ u.status = .revoked := by
  intro u hu hl he
  obtain ⟨v, hv, hid, hs⟩ := hr.principal
  cases (Db.principal_eq_some.mpr ⟨hu, hl, he⟩).symm.trans hv
  exact ⟨hid, hs⟩

theorem redeemInvite_revoked {i : Env} {db : Db} {id fresh : Uuid} {r : Bool} (hr : Revoked user email db)
    (h : ((Stmt.redeemInvite id fresh email).answer i db).1 = .ok r) : r = false := by
  obtain ⟨-, hq⟩ := Stmt.answer_ok h
  rcases exec_redeemInvite hq with ⟨hb, -⟩ | ⟨settled, v, -, -, -, -, -, hi⟩
  · exact hb
  · obtain ⟨users, hin, -⟩ := Db.insertUser_ok hi
    obtain ⟨u, hu, -⟩ := hr.principal
    obtain ⟨hmem, hl, he⟩ := Db.principal_eq_some.mp hu
    exact absurd (by simp [userSchema, hl, he])
      ((Table.conflict_eq_none.mp (Table.insert_eq_ok.mp hin).1).2.2 email rfl u hmem)

theorem redeem_revoked (link presenting : String) {w : World} (hr : Revoked user email w.db)
    (hp : P.normalizeEmail presenting = email) :
    Ensures (fun o _ => ∀ r, o ≠ .ok r) (P.redeem link presenting) w := by
  have never : ∀ {e : PortalError} {w : World},
    Ensures (fun o _ => ∀ r : Uuid × String, o ≠ .ok r) (refuse e) w :=
    ensures_refuse fun _ _ _ h => nomatch h
  unfold Portal.redeem
  dsimp only
  split
  · exact never
  next parts _ =>
    apply ensures_query (fun _ _ _ _ h => nomatch h)
    intro w₁ h₁ i₁ row _
    have hr₁ := (hr.later h₁).later (grows_exec (.sql (.inviteById parts.id)) i₁ w₁)
    cases row with
    | none => exact never
    | some row =>
      dsimp only
      split
      · exact never
      next hag =>
        have hemail : row.recipientEmail = email :=
          (inviteAgrees_pending (Bool.not_eq_false _ ▸ hag)).1.symm.trans hp
        apply ensures_step
        intro now w₂ h₂
        split
        · exact never
        apply ensures_step
        intro fresh w₃ h₃
        apply ensures_query (fun _ _ _ _ h => nomatch h)
        intro w₄ h₄ i₄ redeemed hq
        rw [hemail] at hq
        cases redeemInvite_revoked (((hr₁.later h₂).later h₃).later h₄) hq
        exact never

theorem redeem_conflicts {link presenting : String} {i : Nat → Env} {w : World} {parts : ParsedCapability}
    {v : PortalInvite} (hr : Revoked user email w.db) (hp : P.normalizeEmail presenting = email)
    (ha : P.Accepts link presenting i w.db parts v) (hf : (i 3).fault = none)
    (hfresh : w.db.users.get (i 2).uuid = none) :
    ((P.redeem link presenting).run portalMachine i w).1 =
      .error (.err (.db (.violates "idx_portal_users_email_live"))) := by
  obtain ⟨hemail, hpend, -⟩ := inviteAgrees_pending ha.agrees
  have hv : v.recipientEmail = email := hemail.symm.trans hp
  obtain ⟨u, hu, -⟩ := hr.principal
  obtain ⟨hmem, hl, he⟩ := Db.principal_eq_some.mp hu
  have hconflict : w.db.users.conflict (.fresh (i 2).uuid v.recipientEmail (i 3).now.stored) =
      some "idx_portal_users_email_live" :=
    Table.conflict_index (freshUser_broken.mpr (recipient_checked ha.stored)) (Table.get_eq_none.mp hfresh) hmem
      (show userSchema.idx u = some email by simp [userSchema, hl, he]) (hv ▸ rfl)
  obtain ⟨settled, hq⟩ := redeemInvite_pending ha.stored hpend
  rw [Table.insert_conflict hconflict] at hq
  rw [redeem_accepted ha]
  rcases run_query (from_ 3 i) { w with clock := (i 2).now }
    (.redeemInvite parts.id (i 2).uuid v.recipientEmail) _ with ⟨e, hans, hrun⟩ | ⟨r, hans, -⟩
  · rw [hrun]
    cases (congrArg Prod.fst (Stmt.answer_of_error hf hq)).symm.trans hans
    rfl
  · cases (congrArg Prod.fst (Stmt.answer_of_error hf hq)).symm.trans hans

def Request.Presents (P : Portal) (email : String) : Request → Prop
  | .redeem _ presenting => P.normalizeEmail presenting = email
  | _ => False

theorem serve_revoked (t : Request) {w : World} (hr : Revoked user email w.db) :
    Ensures (fun o _ => t.Presents P email → ∀ r, o ≠ .ok r) (P.serve t) w := by
  cases t with
  | redeem link presenting =>
    by_cases hp : P.normalizeEmail presenting = email
    · apply ensures_reply (redeem_revoked link presenting hr hp) (fun a _ ha _ _ _ => absurd rfl (ha a))
      exact fun _ _ _ _ _ h => nomatch h
    · exact (ensures_trivial _).weaken fun _ _ _ h => absurd h hp
  | _ => exact (ensures_trivial _).weaken fun _ _ _ h => h.elim

end

/-- **Re-access never happens.** From a state in which the principal of an
address is revoked on, in every interleaving, the address has no active
principal, no redemption that starts for it succeeds, and an accepted
presentation answers the broken index and changes nothing. -/
theorem reaccess_never_happens (P : Portal) (pool : Pool portalMachine Halt Reply Request) (user : Uuid)
    (email : String) (hr : Revoked user email pool.world.db) (ms : List (Move portalMachine Request)) :
    let later := pool.play P.serve ms
    (∀ u ∈ later.world.db.users.rows, u.live = true → u.email = email → u.id = user ∧ u.status = .revoked) ∧
    (∀ n c r, pool.calls.length ≤ n → later.calls[n]? = some c → c.tag.Presents P email →
      c.outcome ≠ some (.ok r)) ∧
    ∀ link presenting i, P.normalizeEmail presenting = email →
      let redeemed := (P.redeem link presenting).run portalMachine i later.world
      redeemed.2.db = later.world.db ∧
      ∀ parts v, P.Accepts link presenting i later.world.db parts v → (i 3).fault = none →
        later.world.db.users.get (i 2).uuid = none →
        redeemed.1 = .error (.err (.db (.violates "idx_portal_users_email_live"))) := by
  intro later
  obtain ⟨-, hlater, hQ⟩ := Pool.guards_play (M := portalMachine) (G := Grows) P.serve
    (fun w => Revoked user email w.db) pool
    (fun n t o _ => pool.calls.length ≤ n → t.Presents P email → ∀ r, o ≠ .ok r)
    Grows.refl (fun _ _ _ => Grows.trans) (fun a i w h _ => ⟨grows_exec a i w, h.later (grows_exec a i w)⟩)
    (fun n t w _ h => (serve_revoked t h).weaken fun _ _ h _ => h) hr
    (fun n c hc => (ensures_trivial c.rest).weaken fun _ _ _ hn =>
      absurd (List.getElem?_eq_some_iff.mp hc).1 (Nat.not_lt.mpr hn)) ms
  refine ⟨hlater.sole, fun n c r hn hc ht ho => hQ n c _ hc ho hn ht r rfl,
    fun link presenting i hp => ⟨?_, fun parts v ha hf hfresh => redeem_conflicts hlater hp ha hf hfresh⟩⟩
  rcases redeem_alone (show (P.redeem link presenting).run portalMachine i later.world = (_, _) from rfl) with
    ⟨parts, v, db', hs, -⟩ | ⟨-, -, hdb⟩
  · obtain ⟨u, hu, -⟩ := hlater.principal
    rw [← hp, (inviteAgrees_pending hs.agrees).1] at hu
    cases hu.symm.trans hs.vacant
  · exact hdb

namespace Probe

def offboarded : World :=
  ((revokeAccess (uuid 2) "offboarded" "officer").run portalMachine (fun _ => env) (world admitted)).2

def reinvited : Except Halt String × World :=
  (portal.mintInvite email none 14).run portalMachine (fun _ => { env with uuid := uuid 1 }) offboarded

theorem reinvited_link : reinvited.1 = .ok inviteLink := by decide +kernel

def readmission : Except Halt (Uuid × String) × World :=
  (portal.redeem inviteLink email).run portalMachine (fun n => { env with uuid := uuid (n + 4) }) reinvited.2

end Probe

/-- An officer revokes a principal, invites the address again, and the
recipient presents the new link in time: the answer is a database error, the
invitation stays pending and the address has no active principal. -/
theorem reinvited_address_is_refused :
    Probe.reinvited.1 = .ok Probe.inviteLink ∧
    Probe.readmission.1 = .error (.err (.db (.violates "idx_portal_users_email_live"))) ∧
    Probe.readmission.2.db.invites.rows.map (·.status) = [.pending] ∧
    Probe.readmission.2.db.users.rows.map (·.status) = [.revoked] := by
  refine ⟨Probe.reinvited_link, ?_⟩
  rw [Probe.readmission.eq_1, Portal.redeem.eq_1, Probe.parse_inviteLink]
  decide +kernel

theorem reaccess_never_happens_probe :
    Probe.reinvited.1 = .ok Probe.inviteLink ∧ ∀ u ∈ Probe.reinvited.2.db.users.rows, u.live = true →
      u.email = Probe.email → u.id = Probe.uuid 2 ∧ u.status = .revoked :=
  ⟨Probe.reinvited_link, (reaccess_never_happens Probe.portal ⟨Probe.reinvited.2, []⟩ (Probe.uuid 2) Probe.email
    ⟨Probe.user.revoke "offboarded" Probe.now, by decide +kernel⟩ []).1⟩

end BackbonePortal
