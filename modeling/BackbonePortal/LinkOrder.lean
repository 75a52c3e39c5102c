import BackbonePortal.Alone
import BackbonePortal.Footprint
import BackbonePortal.Revocation
import Mathlib.Data.List.Permutation

/-!
# The lifecycle link

What the portal knows of one sapiens user is a small machine: no principal, an
unlinked one, a linked one, a revoked one. Creation, `created` and `gone` move
it along in that order only; out of that order one of them finds nothing to do,
and nothing makes up for it later.
-/

namespace BackbonePortal

open Proc Tables

/-! ## The abstract machine -/

inductive Happening where
  | admission
  | created
  | gone
deriving DecidableEq, Repr

inductive LinkStage where
  | absent
  | present
  | linked
  | revoked
deriving DecidableEq, Repr

def LinkStage.next : LinkStage → Happening → LinkStage
  | .absent, .admission => .present
  | .present, .created => .linked
  | .linked, .gone => .revoked
  | s, _ => s

theorem revoked_iff_in_order {order : List Happening} (h : order.Perm [.admission, .created, .gone]) :
    order.foldl LinkStage.next .absent = .revoked ↔ order = [.admission, .created, .gone] := by
  have each : ∀ order ∈ List.permutations' [Happening.admission, .created, .gone],
      order.foldl LinkStage.next .absent = .revoked ↔ order = [.admission, .created, .gone] := by decide
  exact each order (List.mem_permutations'.mpr h)

/-! ## What a stage says of the store -/

def Unlinked (sapiens : Uuid) (db : Db) : Prop :=
  ∀ u ∈ db.users.rows, u.live = true → u.sapiensUserId ≠ some sapiens

def LinkStage.Holds (email : String) (sapiens : Uuid) : LinkStage → Db → Prop
  | .absent, db => db.principal email = none ∧ Unlinked sapiens db
  | .present, db => (∃ u, db.principal email = some u ∧ u.status = .active ∧ u.sapiensUserId = none) ∧
      Unlinked sapiens db
  | .linked, db => ∃ u, db.principal email = some u ∧ u.status = .active ∧ u.sapiensUserId = some sapiens ∧
      ∀ v ∈ db.users.rows, v.live = true → v.sapiensUserId = some sapiens → v = u
  | .revoked, db => ∃ user, Revoked user email db

section
variable {email : String} {sapiens : Uuid} {s : LinkStage} {db db' : Db}

theorem LinkStage.Holds.congr (hu : db'.users = db.users) (h : s.Holds email sapiens db) :
    s.Holds email sapiens db' := by
  have hp : db'.principal email = db.principal email := by rw [Db.principal, hu, Db.principal]
  cases s with
  | absent => exact ⟨hp.trans h.1, fun u hm => h.2 u (hu ▸ hm)⟩
  | present => exact ⟨by rw [hp]; exact h.1, fun u hm => h.2 u (hu ▸ hm)⟩
  | linked =>
    obtain ⟨u, hpu, ha, hs, honly⟩ := h
    exact ⟨u, hp.trans hpu, ha, hs, fun v hm => honly v (hu ▸ hm)⟩
  | revoked =>
    obtain ⟨user, u, hg, hr⟩ := h
    exact ⟨user, u, hu ▸ hg, hr⟩

theorem LinkStage.Holds.not_revoked (h : s.Holds email sapiens db) (hs : s ≠ .revoked) :
    ¬∃ u, db.principal email = some u ∧ u.status = .revoked := by
  rintro ⟨u, hu, hr⟩
  cases s with
  | absent => cases h.1.symm.trans hu
  | present =>
    obtain ⟨v, hv, ha, -⟩ := h.1
    cases hv.symm.trans hu
    cases ha.symm.trans hr
  | linked =>
    obtain ⟨v, hv, ha, -⟩ := h
    cases hv.symm.trans hu
    cases ha.symm.trans hr
  | revoked => exact hs rfl

/-! ## The three happenings -/

theorem present_of_insert {id : Uuid} {now : Instant} {users : Table userSchema}
    (h : LinkStage.absent.Holds email sapiens db) (hi : db.users.insert (.fresh id email now) = .ok users)
    (hu : db'.users = users) : LinkStage.present.Holds email sapiens db' := by
  have hrows := (Table.insert_eq_ok.mp hi).2
  refine ⟨⟨.fresh id email now, Db.principal_eq_some.mpr ⟨?_, rfl, rfl⟩, rfl, rfl⟩, fun u hm hl hs => ?_⟩
  · rw [hu, hrows]
    exact List.mem_append_right _ (List.mem_singleton_self _)
  · rw [hu, hrows] at hm
    rcases List.mem_append.mp hm with hm | hm
    · exact h.2 u hm hl hs
    · cases List.mem_singleton.mp hm
      cases hs

theorem stampSapiens_next {now : Instant} {scan : Nat} {r : Option Uuid}
    (h : s.Holds email sapiens db) (hq : (Stmt.stampSapiens sapiens email).exec now scan db = .ok (r, db')) :
    (s.next .created).Holds email sapiens db' := by
  obtain ⟨users, hu, -, rfl⟩ := Db.updateUsers_ok hq
  have hrows := (Table.update_eq_ok hu).2
  -- where the WHERE clause finds no row, the table stays
  have idle : (∀ u ∈ db.users.rows, u.email = email → u.live = true → u.sapiensUserId ≠ none) →
      ({ db with users } : Db).users = db.users := by
    intro hno
    refine Table.ext (hrows.trans ?_)
    refine (List.map_congr_left fun u hm => if_neg fun hp => ?_).trans (List.map_id _)
    simp only [Bool.and_eq_true, decide_eq_true_eq, Option.isNone_iff_eq_none] at hp
    exact hno u hm hp.1.1 hp.2 hp.1.2
  cases s with
  | absent =>
    exact h.congr (idle fun u hm he hl _ => Db.principal_eq_none.mp h.1 u hm hl he)
  | linked =>
    refine LinkStage.Holds.congr (idle fun u hm he hl hn => ?_) h
    obtain ⟨v, hv, -, hs, -⟩ := h
    cases (Db.principal_eq_some.mpr ⟨hm, hl, he⟩).symm.trans hv
    cases hn.symm.trans hs
  | revoked =>
    obtain ⟨user, hr⟩ := h
    exact ⟨user, hr.later (exec_evolves _ _ _ _ _ _ hq)⟩
  | present =>
    obtain ⟨⟨u, hpu, ha, hn⟩, hun⟩ := h
    obtain ⟨hm, hl, he⟩ := Db.principal_eq_some.mp hpu
    have hself : (if (u.email = email && u.sapiensUserId.isNone && u.live) then u.link sapiens now else u) =
        u.link sapiens now := if_pos (by simp [he, hn, hl])
    refine ⟨u.link sapiens now, Db.principal_eq_some.mpr ⟨?_, hl, he⟩, ha, rfl, fun v hv hvl hvs => ?_⟩
    · rw [show ({ db with users } : Db).users.rows = _ from hrows]
      exact List.mem_map.mpr ⟨u, hm, hself⟩
    · rw [show ({ db with users } : Db).users.rows = _ from hrows] at hv
      obtain ⟨q, hqm, rfl⟩ := List.mem_map.mp hv
      split at hvs
      next hp =>
        simp only [Bool.and_eq_true, decide_eq_true_eq] at hp
        have hqu : q = u := by
          have := (Db.principal_eq_some.mpr ⟨hqm, hp.2, hp.1.1⟩).symm.trans hpu
          exact Option.some.inj this
        rw [hqu, hself]
      next hp =>
        rw [if_neg hp] at hvl
        exact absurd hvs (hun q hqm hvl)

theorem principalByLink_next {now : Instant} {scan : Nat} {r : Option Uuid} (h : s.Holds email sapiens db)
    (hq : (Stmt.principalByLink sapiens).exec now scan db = .ok (r, db')) :
    db' = db ∧ (s = .absent ∨ s = .present → r = none) ∧
      (s = .linked → ∃ u, db.users.get u.id = some u ∧ u.status = .active ∧ u.live = true ∧ u.email = email ∧
        r = some u.id) := by
  simp only [Stmt.exec, Except.ok.injEq, Prod.mk.injEq] at hq
  obtain ⟨hr, rfl⟩ := hq
  have hmem : ∀ x, x ∈ reorder scan (db.users.rows.filter fun u => u.sapiensUserId = some sapiens && u.live) →
      x ∈ db.users.rows ∧ x.sapiensUserId = some sapiens ∧ x.live = true := by
    intro x hx
    simpa using hx
  refine ⟨rfl, fun hs => ?_, fun hs => ?_⟩
  · have hun : Unlinked sapiens db := by
      rcases hs with rfl | rfl
      · exact h.2
      · exact h.2
    have hnil : (reorder scan
      (db.users.rows.filter fun u => u.sapiensUserId = some sapiens && u.live)).head? = none := by
      rw [List.head?_eq_none_iff, List.eq_nil_iff_forall_not_mem]
      intro x hx
      obtain ⟨hm, hxs, hl⟩ := hmem x hx
      exact hun x hm hl hxs
    rw [hnil] at hr
    exact hr.symm
  · subst hs
    obtain ⟨u, hpu, ha, hus, honly⟩ := h
    obtain ⟨hm, hl, he⟩ := Db.principal_eq_some.mp hpu
    refine ⟨u, Table.get_key hm, ha, hl, he, ?_⟩
    have hin : u ∈ reorder scan (db.users.rows.filter fun u => u.sapiensUserId = some sapiens && u.live) := by
      simp [hm, hus, hl]
    cases hd :
      (reorder scan (db.users.rows.filter fun u => u.sapiensUserId = some sapiens && u.live)).head? with
    | none => rw [List.head?_eq_none_iff.mp hd] at hin; cases hin
    | some x =>
      obtain ⟨hxm, hxs, hxl⟩ := hmem x (List.mem_of_head? hd)
      rw [hd, honly x hxm hxl hxs] at hr
      exact hr.symm

end

/-! ## The calls -/

section
variable {P : Portal} {email : String} {sapiens : Uuid} {s : LinkStage} {w : World}

theorem leaves_stage {α : Type} {p : Verb α} (hp : p.All (Act.Spares .users)) (h : s.Holds email sapiens w.db) :
    Leaves (s.Holds email sapiens) p w :=
  leaves_spares (n := .users) (fun _ _ hs h => h.congr hs) hp h

theorem Act.Mints.spares_users {a : Act} (h : a.Mints) : a.Spares .users := by
  cases a with
  | sql q => cases q <;> first | exact h.elim | simp [Act.Spares, Stmt.writes]
  | _ => trivial

theorem audit_spares_users {action actor : String} {user invite token : Option Uuid} {detail : Json} :
    (audit action user invite token actor detail).All (Act.Spares .users) :=
  all_query (by simp [Act.Spares, Stmt.writes])

theorem afterRedemption_spares_users (user invite : Uuid) (email : String) :
    (P.afterRedemption user invite email).All (Act.Spares .users) :=
  .bind audit_spares_users fun _ =>
    .bind (mintBearer_all P (fun _ => Act.Mints.spares_users) _ _) fun _ => trivial

theorem redeem_present {link presenting : String} (he : P.normalizeEmail presenting = email)
    (h : LinkStage.absent.Holds email sapiens w.db) :
    Leaves (LinkStage.present.Holds email sapiens) (P.redeem link presenting) w := by
  intro i r hr
  rcases redeem_alone (show (P.redeem link presenting).run portalMachine i w = (_, _) from rfl) with
    ⟨parts, v, db', hs, hq, htail⟩ | ⟨-, ⟨e, hfail⟩, -⟩
  · have hv : v.recipientEmail = email := ((inviteAgrees_pending hs.agrees).1.symm.trans he)
    rw [hv] at hq htail
    have hpresent : LinkStage.present.Holds email sapiens db' := by
      rcases exec_redeemInvite hq with ⟨hb, -⟩ | ⟨settled, v, -, -, -, -, -, hi⟩
      · cases hb
      · obtain ⟨users, hin, rfl⟩ := Db.insertUser_ok hi
        exact present_of_insert h hin rfl
    have := leaves_stage (w := { w with db := db', clock := (i 3).now })
      (afterRedemption_spares_users (P := P) (i 2).uuid parts.id email) hpresent (from_ 4 i)
    rw [htail] at this
    exact this r hr
  · rw [hfail] at hr
    cases hr

theorem liveUserByEmail_absent {i : Env} {db : Db} {r : Option (Uuid × PortalUserStatus)}
    (h : db.principal email = none)
    (hr : ((Stmt.liveUserByEmail email).answer i db).1 = .ok r) :
    r = none ∧ ((Stmt.liveUserByEmail email).answer i db).2 = db := by
  obtain ⟨-, hq⟩ := Stmt.answer_ok hr
  simp only [Stmt.exec, h, Option.map_none, Except.ok.injEq, Prod.mk.injEq] at hq
  exact ⟨hq.1.symm, hq.2.symm⟩

theorem createPrincipal_present (h : LinkStage.absent.Holds email sapiens w.db) :
    Leaves (LinkStage.present.Holds email sapiens) (P.createPrincipal email) w := by
  unfold Portal.createPrincipal
  refine leaves_act fun i₀ => leaves_query fun i inserted hr => ?_
  obtain ⟨-, hq⟩ := Stmt.answer_ok hr
  rcases exec_insertSignup hq with ⟨users, hin, rfl, hdb⟩ | ⟨c, -, rfl, hdb⟩
  · refine leaves_stage (.bind trivial fun _ => .bind audit_spares_users fun _ =>
      .bind (mintBearer_all P (fun _ => Act.Mints.spares_users) _ _) fun _ => trivial) ?_
    exact present_of_insert h hin (congrArg Db.users hdb)
  · -- the key was taken, and the address has no principal to fall back on
    have hnone : ((Stmt.insertSignup i₀.uuid email).answer i w.db).2.principal email = none :=
      (congrArg (Db.principal · email) hdb).trans h.1
    unfold Portal.createdPrincipal
    dsimp only
    rw [Prog.bind_eq, Prog.bind_eq, Prog.bind_assoc]
    apply leaves_query
    intro i' r hr'
    obtain ⟨rfl, -⟩ := liveUserByEmail_absent hnone hr'
    exact leaves_refuse

theorem checkNow_storeless (key : String) : (checkNow key).All Act.Storeless :=
  .bind (all_step trivial) fun _ => all_checkKey trivial

theorem signupFresh_present {presented ip : String} (h : LinkStage.absent.Holds email sapiens w.db) :
    Leaves (LinkStage.present.Holds email sapiens) (P.signupFresh email presented ip) w := by
  unfold Portal.signupFresh
  refine leaves_bind fun i₁ _ _ => leaves_bind fun i₂ _ _ => leaves_act fun i₃ => ?_
  have h₃ := h.congr (congrArg Db.users ((run_storeless (checkNow_storeless (ipKey ip)) i₂ _).trans
    (run_storeless (checkNow_storeless (P.identityKey email)) i₁ w)))
  rw [Prog.bind_ret]
  split
  · exact createPrincipal_present h₃
  · exact leaves_bind fun _ _ _ => leaves_bind fun _ _ _ => leaves_refuse
  · exact leaves_refuse
  · exact leaves_query fun _ _ _ => leaves_refuse

theorem signup_present {raw presented ip : String} (he : P.normalizeEmail raw = email)
    (h : LinkStage.absent.Holds email sapiens w.db) :
    Leaves (LinkStage.present.Holds email sapiens) (P.signup raw presented ip) w := by
  subst he
  simp only [Portal.signup]
  split
  · exact leaves_refuse
  unfold signupOpen
  simp only [Prog.bind_eq, Prog.bind_assoc]
  apply leaves_act
  intro i₀
  have h₀ : LinkStage.absent.Holds (P.normalizeEmail raw) sapiens (Act.exec (.sql .policyEnabled) i₀ w).2.db :=
    h.congr (act_spares (n := .users) (by simp [Act.Spares, Stmt.writes]) i₀ w)
  cases (Act.exec (.sql .policyEnabled) i₀ w).1 with
  | error e => exact leaves_query fun _ _ _ => leaves_refuse
  | ok is_open =>
    cases is_open with
    | false => exact leaves_query fun _ _ _ => leaves_refuse
    | true =>
      apply leaves_query
      intro i₁ r hr
      obtain ⟨rfl, hdb⟩ := liveUserByEmail_absent h₀.1 hr
      rw [hdb]
      exact signupFresh_present h₀

theorem lifecycleAudit_spares_users {label action : String} {env : Envelope} {user : Option Uuid} {id : Uuid} :
    (P.lifecycleAudit label action env user id).All (Act.Spares .users) :=
  busQuery_all P (by simp [Act.Spares, Stmt.writes])

theorem created_next {env : Envelope} (he : env.Creates P email sapiens) (h : s.Holds email sapiens w.db) :
    Leaves ((s.next .created).Holds email sapiens) (P.handle env) w := by
  obtain ⟨hty, payload, hread, hid, rfl⟩ := he
  simp only [Portal.handle, if_pos hty, Portal.onCreated, hread, hid]
  apply leaves_busQuery
  intro i r hr
  have hnext := stampSapiens_next h (Stmt.answer_ok hr).2
  cases r with
  | some user => exact leaves_stage lifecycleAudit_spares_users hnext
  | none => exact leaves_stage lifecycleAudit_spares_users hnext

theorem revokeAccess_revokes {u : PortalUser} {reason actor : String} (hu : w.db.users.get u.id = some u)
    (hs : u.status ≠ .revoked) (hl : u.live = true) :
    Leaves (fun db => ∃ user, Revoked user u.email db) (revokeAccess u.id reason actor) w := by
  have stays : ∀ db db', Evolves db db' → (∃ user, Revoked user u.email db) →
    ∃ user, Revoked user u.email db' :=
    fun _ _ he h => h.imp fun _ h => h.later he
  unfold revokeAccess
  apply leaves_query
  intro i r hr
  obtain ⟨users, -, hans, -⟩ := Db.updateUsers_ok (Stmt.answer_ok hr).2
  simp only [Bool.and_assoc] at hans
  rw [w.db.users_with_id, hu, Option.filter_some, if_pos (by simp [hs, hl])] at hans
  subst hans
  obtain ⟨v, hv, hrev, hlive, hmail, -⟩ := revokeUser_committed hr
  exact leaves_stable stays _ ⟨u.id, v, hv, hrev, hlive, hmail⟩

theorem leaves_mapErr {α : Type} {S : Db → Prop} {p : Verb α} {g : Halt → Halt} (h : Leaves S p w) :
    Leaves S (p.mapErr g : Verb α) w := by
  intro i r hr
  rw [Prog.run_mapErr] at hr ⊢
  cases hp : (p.run portalMachine i w).1 with
  | ok a => exact h i a hp
  | error e => rw [hp] at hr; cases hr

theorem gone_next {env : Envelope} (he : env.Ends sapiens) (h : s.Holds email sapiens w.db) :
    Leaves ((s.next .gone).Holds email sapiens) (P.handle env) w := by
  obtain ⟨hty, payload, hread, hid⟩ := he
  have hne : env.eventType ≠ userCreated := by
    intro heq
    rw [heq] at hty
    exact absurd hty (by decide)
  simp only [Portal.handle, if_neg hne, if_pos hty, Portal.onUserGone, hread, hid]
  have stays : ∀ db db', Evolves db db' → LinkStage.revoked.Holds email sapiens db →
      LinkStage.revoked.Holds email sapiens db' := fun _ _ hg h => h.imp fun _ h => h.later hg
  by_cases hrev : s = .revoked
  · subst hrev
    exact leaves_stable stays _ h
  apply leaves_busQuery
  intro i r hr
  obtain ⟨hdb, hnobody, hlinked⟩ := principalByLink_next h (Stmt.answer_ok hr).2
  rw [hdb]
  cases s with
  | revoked => exact absurd rfl hrev
  | absent =>
    cases hnobody (.inl rfl)
    exact leaves_ret h
  | present =>
    cases hnobody (.inr rfl)
    exact leaves_ret h
  | linked =>
    obtain ⟨u, hu, ha, hl, rfl, rfl⟩ := hlinked rfl
    refine leaves_bind fun i' flipped hflip => leaves_stable stays _ ?_
    refine leaves_mapErr (revokeAccess_revokes hu ?_ hl) i' flipped hflip
    rw [ha]
    exact PortalUserStatus.noConfusion

end

/-! ## The three calls in any order -/

def Happening.Is (P : Portal) (email : String) (sapiens : Uuid) : Happening → Request → Prop
  | .admission, .redeem _ presenting => P.normalizeEmail presenting = email
  | .admission, .signup raw _ _ => P.normalizeEmail raw = email
  | .created, .handle env => env.Creates P email sapiens
  | .gone, .handle env => env.Ends sapiens
  | _, _ => False

structure Occurrence where
  kind : Happening
  call : Request
  inputs : Nat → Env

/-- The calls one after another, as long as they complete with `Ok`. -/
def Portal.complete (P : Portal) : List Occurrence → World → Option World
  | [], w => some w
  | o :: os, w =>
    match (P.serve o.call).run portalMachine o.inputs w with
    | (.ok _, w') => P.complete os w'
    | (.error _, _) => none

theorem leaves_reply {α : Type} {S : Db → Prop} {p : Verb α} {f : α → Reply} {w : World} (h : Leaves S p w) :
    Leaves S (reply p f) w := leaves_bind fun i a ha => leaves_ret (h i a ha)

theorem serve_next {P : Portal} {email : String} {sapiens : Uuid} {h : Happening} {t : Request} {s : LinkStage}
    {w : World} (is_ : h.Is P email sapiens t) (hs : s.Holds email sapiens w.db)
    (hadm : h = .admission → s = .absent) :
    Leaves ((s.next h).Holds email sapiens) (P.serve t) w := by
  cases h with
  | admission =>
    cases hadm rfl
    cases t with
    | redeem link presenting => exact leaves_reply (redeem_present is_ hs)
    | signup raw presented ip => exact leaves_reply (signup_present is_ hs)
    | _ => exact is_.elim
  | created =>
    cases t with
    | handle env => exact leaves_reply (created_next is_ hs)
    | _ => exact is_.elim
  | gone =>
    cases t with
    | handle env => exact leaves_reply (gone_next is_ hs)
    | _ => exact is_.elim

theorem complete_stage {P : Portal} {email : String} {sapiens : Uuid} {os : List Occurrence} {s : LinkStage}
    {w w' : World} (hkind : ∀ o ∈ os, o.kind.Is P email sapiens o.call) (hs : s.Holds email sapiens w.db)
    (honce : (os.map (·.kind)).Nodup) (hadm : .admission ∈ os.map (·.kind) → s = .absent)
    (hrun : P.complete os w = some w') :
    ((os.map (·.kind)).foldl LinkStage.next s).Holds email sapiens w'.db := by
  induction os generalizing s w with
  | nil =>
    cases hrun
    exact hs
  | cons o os ih =>
    unfold Portal.complete at hrun
    split at hrun
    next r w₁ hcall =>
      have hnext :=
        serve_next (hkind o List.mem_cons_self) hs (fun hk => hadm (hk ▸ List.mem_cons_self)) o.inputs
      rw [hcall] at hnext
      rw [List.map_cons, List.nodup_cons] at honce
      refine ih (fun o' ho => hkind o' (List.mem_cons_of_mem _ ho)) (hnext r rfl)
        honce.2 (fun hlater => ?_) hrun
      -- the admission is still to come, so this is not it and the link is still absent
      have habsent := hadm (List.mem_cons_of_mem _ hlater)
      subst habsent
      show LinkStage.absent.next o.kind = .absent
      cases hk : o.kind with
      | admission => exact absurd (hk ▸ hlater) honce.1
      | created => rfl
      | gone => rfl
    next => cases hrun

/-- The principal of the address is revoked, and no bearer of it verifies. -/
def Portal.Offboarded (P : Portal) (email : String) (w : World) : Prop :=
  ∃ user, Revoked user email w.db ∧
    ∀ link i p, BearerOf link user w.db → ((P.verifyBearer link).run portalMachine i w).1 ≠ .ok p

theorem offboarded_of_revoked {P : Portal} {email : String} {w : World} (h : ∃ user, Revoked user email w.db) :
    P.Offboarded email w := by
  obtain ⟨user, hr⟩ := h
  refine ⟨user, hr, fun link i p hb hok => ?_⟩
  rcases (verifyBearer_refuses (P := P) link hr).run i with ⟨e, he, -⟩ | ⟨other, ho, hne⟩
  · cases he.symm.trans hok
  · exact hne (ho.unique (hb.later (grows_run _ i w)))

/-- **The order matters.** Of the six orders of admission, `created` and `gone`,
all three completed, exactly one leaves the principal revoked. -/
theorem offboarded_iff_in_order (P : Portal) (email : String) (sapiens : Uuid)
    (os : List Occurrence) (w w' : World)
    (hkind : ∀ o ∈ os, o.kind.Is P email sapiens o.call)
    (horder : (os.map (·.kind)).Perm [.admission, .created, .gone]) (hprincipal : w.db.principal email = none)
    (hlink : Unlinked sapiens w.db) (hrun : P.complete os w = some w') :
    P.Offboarded email w' ↔ os.map (·.kind) = [.admission, .created, .gone] := by
  have hstage := complete_stage (s := .absent) hkind ⟨hprincipal, hlink⟩ (horder.nodup_iff.mpr (by decide))
    (fun _ => rfl) hrun
  rw [← revoked_iff_in_order horder]
  constructor
  · rintro ⟨user, hr, -⟩
    by_contra hne
    obtain ⟨u, hu, -, hs⟩ := hr.principal
    exact hstage.not_revoked hne ⟨u, hu, hs⟩
  · intro heq
    rw [heq] at hstage
    exact offboarded_of_revoked hstage

namespace Probe

def lifecycle (eventType : String) : Envelope :=
  { id := "envelope", eventType
    payload := .object [("user_id", .str (uuid 9).display), ("email", .str email)] }

def creation : Occurrence := ⟨.created, .handle (lifecycle userCreated), fun _ => env⟩

def ending : Occurrence := ⟨.gone, .handle (lifecycle "sapiens.user.deleted"), fun _ => env⟩

def redemption : Occurrence := ⟨.admission, .redeem inviteLink email, fun _ => env⟩

def registration : Occurrence := ⟨.admission, .signup email "secret" "10.0.0.1", fun _ => env⟩

def opened : Db :=
  { Db.empty with policies := .single { id := uuid 5, enabled := true } (by decide +kernel) }

theorem creation_is : creation.kind.Is portal email (uuid 9) creation.call :=
  ⟨rfl, ⟨(uuid 9).display, email⟩, by decide +kernel⟩

theorem ending_is : ending.kind.Is portal email (uuid 9) ending.call :=
  ⟨by decide, ⟨(uuid 9).display⟩, by decide +kernel⟩

end Probe

/-- The sapiens user is created before the invited principal is, and then
deleted: all three calls complete, and the principal stays active. -/
theorem early_creation_is_lost :
    (Probe.world Probe.invited).db.principal Probe.email = none ∧
    Unlinked (Probe.uuid 9) (Probe.world Probe.invited).db ∧
    ∃ w', Probe.portal.complete [Probe.creation, Probe.redemption, Probe.ending]
      (Probe.world Probe.invited) = some w' ∧
      w'.db.users.rows.map (·.status) = [.active] ∧ ¬Probe.portal.Offboarded Probe.email w' := by
  refine ⟨rfl, (fun u hu => nomatch hu), ?_⟩
  have hrun : (Probe.portal.complete [Probe.creation, Probe.redemption, Probe.ending]
      (Probe.world Probe.invited)).map (fun w => w.db.users.rows.map (·.status)) =
      some [.active] := by decide +kernel
  obtain ⟨w', hw', hactive⟩ := Option.map_eq_some_iff.mp hrun
  refine ⟨w', hw', hactive, fun hoff => ?_⟩
  obtain ⟨user, ⟨u, hu, hs, -⟩, -⟩ := hoff
  have hmem := List.mem_map_of_mem (f := (·.status)) (Table.get_eq_some.mp hu).1
  rw [hactive, hs] at hmem
  exact absurd hmem (by decide)

theorem offboarded_iff_in_order_probe :
    ∃ w', Probe.portal.complete [Probe.registration, Probe.creation, Probe.ending]
      (Probe.world Probe.opened) = some w' ∧
      Probe.portal.Offboarded Probe.email w' := by
  have hrun : (Probe.portal.complete [Probe.registration, Probe.creation, Probe.ending]
      (Probe.world Probe.opened)).isSome := by decide +kernel
  obtain ⟨w', hw'⟩ := Option.isSome_iff_exists.mp hrun
  refine ⟨w', hw', (offboarded_iff_in_order Probe.portal Probe.email (Probe.uuid 9)
    [Probe.registration, Probe.creation, Probe.ending] (Probe.world Probe.opened) w'
    (fun o ho => ?_) (.refl _) rfl
    (fun u hu => nomatch hu) hw').mpr rfl⟩
  simp only [List.mem_cons, List.not_mem_nil, or_false] at ho
  rcases ho with rfl | rfl | rfl
  · show Probe.portal.normalizeEmail Probe.email = Probe.email
    decide +kernel
  · exact Probe.creation_is
  · exact Probe.ending_is

end BackbonePortal
