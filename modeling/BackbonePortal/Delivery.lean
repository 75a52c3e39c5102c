import BackbonePortal.Revocation
import BackbonePortal.Trail

/-!
# One delivery

What one run of the lifecycle handler does, as far as it comes: the onboarding
arm is a stamp and an audit row, the revocation arm a flip, its sweeps and an
audit row.
-/

namespace BackbonePortal

open Proc Tables

/-! ## The statements of a delivery -/

section
variable {P : Portal} {α : Type} (i : Nat → Env) (w : World)

theorem run_busQuery (label : String) (q : Stmt) (f : q.Res → Verb α) :
    (∃ e m, (q.answer (i 0) w.db).1 = .error e ∧ ((P.busQuery label q).bind f).run portalMachine i w =
      (.error (.event handlerName m), { w with clock := (i 0).now })) ∨
    (∃ r, (q.answer (i 0) w.db).1 = .ok r ∧ ((P.busQuery label q).bind f).run portalMachine i w =
      (f r).run portalMachine (from_ 1 i) { w with db := (q.answer (i 0) w.db).2, clock := (i 0).now }) := by
  cases ha : (q.answer (i 0) w.db).1 with
  | error e =>
    refine .inl ⟨e, label ++ ": " ++ P.sqlErrorText e, rfl, ?_⟩
    simp only [Portal.busQuery, Prog.bind_act, Prog.run_act, Act.exec, ha, Stmt.answer_error ha]
    rfl
  | ok r =>
    refine .inr ⟨r, rfl, ?_⟩
    simp only [Portal.busQuery, Prog.bind_act, Prog.run_act, Act.exec, ha]
    rfl

end

def lifecycleEvent (action : String) (env : Envelope) (user : Option Uuid) (sapiens : Uuid) : AuditEvent :=
  recordAudit action (some ("lifecycle:" ++ env.eventType)) user none none
    (.object [("envelope_id", .str env.id), ("sapiens_user_id", .str sapiens.display)])

section
variable {P : Portal} {i : Nat → Env} {w : World} {env : Envelope} {email : String} {sapiens : Uuid}

theorem run_lifecycleAudit (label action : String) (user : Option Uuid) :
    (∃ m, (i 0).fault ≠ none ∧ (P.lifecycleAudit label action env user sapiens).run portalMachine i w =
      (.error (.event handlerName m), { w with clock := (i 0).now })) ∨
    ((i 0).fault = none ∧ (P.lifecycleAudit label action env user sapiens).run portalMachine i w =
      (.ok (), { w with
        db := w.db.appended (lifecycleEvent action env user sapiens) (i 0).now.stored,
          clock := (i 0).now })) := by
  have hret : P.lifecycleAudit label action env user sapiens =
      (P.busQuery label (.appendAudit (lifecycleEvent action env user sapiens))).bind .ret :=
    (Prog.bind_ret_right _).symm
  rw [hret]
  rcases run_busQuery (P := P) i w label (.appendAudit (lifecycleEvent action env user sapiens)) .ret with
    ⟨e, m, he, hrun⟩ | ⟨r, hr, hrun⟩
  · refine .inl ⟨m, fun hf => ?_, hrun⟩
    rw [appendAudit_answer hf] at he
    cases he
  · have hf := appendAudit_ok.mp ⟨r, hr⟩
    refine .inr ⟨hf, ?_⟩
    rw [hrun, appendAudit_answer hf]
    rfl

/-! ## The onboarding arm -/

theorem link_broken (u : PortalUser) (now : Instant) :
    userSchema.broken (u.link sapiens now) = userSchema.broken u := by
  simp only [Schema.broken, userSchema, PortalUser.link, List.find?]

/-- The principal the stamp finds: live, at the address, and unlinked. -/
def Db.unlinked (db : Db) (email : String) : Option PortalUser :=
  db.users.rows.find? fun u => u.email = email && u.sapiensUserId.isNone && u.live

theorem Db.unlinked_eq_some {db : Db} {u : PortalUser} :
    db.unlinked email = some u ↔ db.principal email = some u ∧ u.sapiensUserId = none := by
  constructor
  · intro h
    have hp := List.find?_some h
    simp only [Bool.and_eq_true, decide_eq_true_eq, Option.isNone_iff_eq_none] at hp
    exact ⟨Db.principal_eq_some.mpr ⟨List.mem_of_find?_eq_some h, hp.2, hp.1.1⟩, hp.1.2⟩
  · rintro ⟨hu, hn⟩
    obtain ⟨hm, hl, he⟩ := Db.principal_eq_some.mp hu
    cases h : db.unlinked email with
    | none => exact absurd (by simp [he, hn, hl]) (List.find?_eq_none.mp h u hm)
    | some v =>
      have hp := List.find?_some h
      simp only [Bool.and_eq_true, decide_eq_true_eq] at hp
      have hv := Db.principal_eq_some.mpr ⟨List.mem_of_find?_eq_some h, hp.2, hp.1.1⟩
      exact congrArg some (Option.some.inj (hv.symm.trans hu))

theorem stampSapiens_answer (sapiens : Uuid) {db : Db} {i : Env} (hf : i.fault = none) :
    ∃ users, (Stmt.stampSapiens sapiens email).answer i db =
        (.ok ((db.unlinked email).map (·.id)), { db with users }) ∧
      users.rows = db.users.rows.map fun u =>
        if u.email = email && u.sapiensUserId.isNone && u.live then u.link sapiens i.now.stored else u := by
  obtain ⟨users, hu, hrows⟩ : ∃ users, db.users.update
      (fun u => u.email = email && u.sapiensUserId.isNone && u.live) (·.link sapiens i.now.stored)
      (fun _ => rfl)
      (fun _ => rfl) = .ok (_, users) ∧ users.rows = _ :=
    Table.update_ok db.users fun u hm _ => (link_broken u _).trans (db.users.checked u hm)
  have hfilter : (db.users.rows.filter fun u => u.email = email && u.sapiensUserId.isNone && u.live) =
      (db.unlinked email).toList := by
    apply db.users.filter_idx (i := email)
    intro u _ hp
    simp only [Bool.and_eq_true, decide_eq_true_eq] at hp
    simp [userSchema, hp.1.1, hp.2]
  refine ⟨users, Stmt.answer_of_ok hf ?_, hrows⟩
  simp only [Stmt.exec, Db.updateUsers, Db.written, hu, hfilter]
  cases db.unlinked email <;> rfl

def createdEvent (env : Envelope) (sapiens : Uuid) (db : Db) (email : String) : AuditEvent :=
  match db.unlinked email with
  | some u => lifecycleEvent "onboarding_linked" env (some u.id) sapiens
  | none => lifecycleEvent "onboarding_no_invitation" env none sapiens

/-- How a delivery of `created` ends: at the stamp, at the audit row, or with both written. -/
inductive CreatedRun (i : Nat → Env) (w : World) (env : Envelope) (email : String) (sapiens : Uuid) :
    Except Halt Unit × World → Prop where
  | unread (message : String) (fault : (i 0).fault ≠ none) :
    CreatedRun i w env email sapiens (.error (.event handlerName message), { w with clock := (i 0).now })
  | stamped {users : Table userSchema} (message : String) (read : (i 0).fault = none)
      (fault : (i 1).fault ≠ none)
      (rows : users.rows = w.db.users.rows.map fun u =>
        if u.email = email && u.sapiensUserId.isNone && u.live then u.link sapiens (i 0).now.stored else u) :
    CreatedRun i w env email sapiens
      (.error (.event handlerName message), { w with db := { w.db with users }, clock := (i 1).now })
  | audited {users : Table userSchema} (read : (i 0).fault = none)
      (rows : users.rows = w.db.users.rows.map fun u =>
        if u.email = email && u.sapiensUserId.isNone && u.live then u.link sapiens (i 0).now.stored else u) :
    CreatedRun i w env email sapiens (.ok (), { w with
      db := { w.db with users }.appended (createdEvent env sapiens w.db email) (i 1).now.stored,
        clock := (i 1).now })

theorem created_run (he : env.Creates P email sapiens) (i : Nat → Env) (w : World) :
    CreatedRun i w env email sapiens ((P.handle env).run portalMachine i w) := by
  obtain ⟨hty, payload, hread, hid, rfl⟩ := he
  simp only [Portal.handle, if_pos hty, Portal.onCreated, hread, hid, Prog.bind_eq]
  rcases run_busQuery (P := P) i w "onboarding stamp"
    (.stampSapiens sapiens (P.normalizeEmail payload.email)) _ with
    ⟨e, m, hfail, hrun⟩ | ⟨r, hr, hrun⟩
  · rw [hrun]
    refine .unread m fun hf => ?_
    obtain ⟨users, hok, -⟩ := stampSapiens_answer sapiens hf
    rw [hok] at hfail
    cases hfail
  · obtain ⟨users, hok, hrows⟩ := stampSapiens_answer sapiens
      (Stmt.answer_ok hr).1
    have hans := hr
    rw [hok] at hr
    cases hr
    rw [hrun, hok]
    have ends : ∀ label action user,
        createdEvent env sapiens w.db (P.normalizeEmail payload.email) =
          lifecycleEvent action env user sapiens →
        CreatedRun i w env (P.normalizeEmail payload.email) sapiens
          ((P.lifecycleAudit label action env user sapiens).run portalMachine (from_ 1 i)
            { w with db := { w.db with users }, clock := (i 0).now }) := by
      intro label action user hevent
      rcases run_lifecycleAudit (P := P) (i := from_ 1 i)
        (w := { w with db := { w.db with users }, clock := (i 0).now }) label action user with
        ⟨m, hf, hrun⟩ | ⟨-, hrun⟩
      · rw [hrun]
        exact .stamped m (Stmt.answer_ok hans).1 hf hrows
      · rw [hrun, ← hevent]
        exact .audited (Stmt.answer_ok hans).1 hrows
    cases hun : w.db.unlinked (P.normalizeEmail payload.email) with
    | some u => exact ends _ _ _ (by rw [createdEvent, hun])
    | none => exact ends _ _ _ (by rw [createdEvent, hun])

theorem stamp_idle {db : Db} {now : Instant} {users : Table userSchema}
    (h : users.rows = db.users.rows.map fun u =>
      if u.email = email && u.sapiensUserId.isNone && u.live then u.link sapiens now else u)
    (hn : db.unlinked email = none) : users = db.users := by
  refine Table.ext (h.trans ?_)
  refine (List.map_congr_left fun u hu => if_neg fun hp => ?_).trans (List.map_id _)
  exact absurd hp (List.find?_eq_none.mp hn u hu)

theorem stamp_links {db : Db} {now : Instant} {users : Table userSchema}
    (h : users.rows = db.users.rows.map fun u =>
      if u.email = email && u.sapiensUserId.isNone && u.live then u.link sapiens now else u) :
    ({ db with users } : Db).unlinked email = none := by
  refine List.find?_eq_none.mpr fun v hv hp => ?_
  rw [show ({ db with users } : Db).users.rows = _ from h] at hv
  obtain ⟨u, -, rfl⟩ := List.mem_map.mp hv
  split at hp
  next => simp [PortalUser.link] at hp
  next hn => exact hn hp

/-! ## The revocation arm -/

def Db.revocable (db : Db) (user : Uuid) : Option PortalUser :=
  (db.users.get user).filter fun u => u.status ≠ .revoked && u.live

theorem reason_checked {u : PortalUser} {reason : String} (h : userSchema.broken u = none)
    (hr : u.revocationReason = some reason) : withinLength 120 reason = true := by
  simp only [Schema.broken, userSchema, Option.map_eq_none_iff, List.find?_eq_none, List.mem_cons,
    List.not_mem_nil, or_false, forall_eq_or_imp, forall_eq, hr] at h
  simpa [optionally] using h.2.2.2.2.2.2.2.1

theorem revoke_broken {u : PortalUser} {reason : String} (now : Instant)
    (hreason : withinLength 120 reason = true)
    (h : userSchema.broken u = none) : userSchema.broken (u.revoke reason now) = none := by
  simp only [Schema.broken, userSchema, PortalUser.revoke, Option.map_eq_none_iff, List.find?_eq_none,
    List.mem_cons, List.not_mem_nil, or_false, forall_eq_or_imp, forall_eq] at h ⊢
  have hset : optionally (withinLength 120) (some reason) = true := hreason
  simp only [h, hset, Bool.not_true, Bool.false_eq_true, not_false_eq_true, and_self]

theorem revokeUser_answer {db : Db} {i : Env} {user : Uuid} {reason : String}
    (hreason : withinLength 120 reason = true)
    (hf : i.fault = none) :
    ∃ users, (Stmt.revokeUser user reason).answer i db =
        (.ok ((db.revocable user).map (·.email)), { db with users }) ∧
      users.rows = db.users.rows.map fun u =>
        if u.id = user && u.status ≠ .revoked && u.live then u.revoke reason i.now.stored else u := by
  obtain ⟨users, hu, hrows⟩ : ∃ users, db.users.update (fun u => u.id = user && u.status ≠ .revoked && u.live)
      (·.revoke reason i.now.stored) (fun _ => rfl) (fun _ => rfl) = .ok (_, users) ∧ users.rows = _ :=
    Table.update_ok db.users fun u hm _ => revoke_broken (u := u) i.now.stored hreason (db.users.checked u hm)
  have hfilter : (db.users.rows.filter fun u => u.id = user && u.status ≠ .revoked && u.live) =
      (db.revocable user).toList := by
    simp only [Bool.and_assoc]
    rw [db.users_with_id, Db.revocable]
  refine ⟨users, Stmt.answer_of_ok hf ?_, hrows⟩
  simp only [Stmt.exec, Db.updateUsers, Db.written, hu, hfilter]
  cases db.revocable user <;> rfl

/-- The principal the lookup by link answers, in the order it reads the rows. -/
def Db.linked (db : Db) (scan : Nat) (sapiens : Uuid) : Option Uuid :=
  (reorder scan (db.users.rows.filter fun u => u.sapiensUserId = some sapiens && u.live)).head?.map (·.id)

theorem Db.linked_eq_some {db : Db} {scan : Nat} {user : Uuid} (h : db.linked scan sapiens = some user) :
    ∃ u ∈ db.users.rows, u.id = user ∧ u.sapiensUserId = some sapiens ∧ u.live = true := by
  obtain ⟨u, hu, rfl⟩ := Option.map_eq_some_iff.mp h
  have hm := List.mem_of_head? hu
  simp only [mem_reorder, List.mem_filter, Bool.and_eq_true, decide_eq_true_eq] at hm
  exact ⟨u, hm.1, rfl, hm.2⟩

theorem Db.linked_eq_none {db : Db} {scan : Nat} (h : db.linked scan sapiens = none) :
    ∀ u ∈ db.users.rows, u.live = true → u.sapiensUserId ≠ some sapiens := by
  intro u hu hl hs
  have hin : u ∈ reorder scan (db.users.rows.filter fun u => u.sapiensUserId = some sapiens && u.live) := by
    simp [hu, hs, hl]
  rw [List.head?_eq_none_iff.mp (Option.map_eq_none_iff.mp h)] at hin
  cases hin

/-- What `revoke_access` does once the flip has found the principal. -/
def sweepAccess (user : Uuid) (email reason actor : String) : Verb Bool := do
  let _ ← revokeAllBearers user reason actor
  let _ ← query (.revokePending email reason)
  pure true

theorem revokeAccess_eq (user : Uuid) (reason actor : String) :
    revokeAccess user reason actor = (query (.revokeUser user reason)).bind fun
      | none => pure false
      | some email => sweepAccess user email reason actor := rfl

/-- No bearer of the principal is active and no invitation of the address is pending. -/
def Db.Swept (user : Uuid) (email : String) (db : Db) : Prop :=
  (∀ t ∈ db.tokens.rows, t.userId = user → t.status ≠ .active) ∧
    ∀ v ∈ db.invites.rows, v.recipientEmail = email → v.status ≠ .pending

theorem sweepAccess_spares_users (user : Uuid) (email reason actor : String) :
    (sweepAccess user email reason actor).All (Act.Spares .users) := by
  unfold sweepAccess revokeAllBearers
  refine .bind (.bind (all_query (by simp [Act.Spares, Stmt.writes])) fun n => ?_) fun _ =>
    .bind (all_query (by simp [Act.Spares, Stmt.writes])) fun _ => trivial
  split
  · exact .bind (all_query (by simp [Act.Spares, Stmt.writes])) fun _ => trivial
  · trivial

theorem sweepAccess_records (user : Uuid) (email reason actor : String) :
    (sweepAccess user email reason actor).All (Act.Records fun event => event.action = "bearer_revoked") := by
  unfold sweepAccess revokeAllBearers
  refine .bind (.bind (all_query trivial) fun n => ?_) fun _ => .bind (all_query trivial) fun _ => trivial
  split
  · exact .bind (all_query rfl) fun _ => trivial
  · trivial

theorem revokeUserTokens_sweeps {db : Db} {i : Env} {user : Uuid} {reason : String} {n : Nat}
    (h : ((Stmt.revokeUserTokens user reason).answer i db).1 = .ok n) :
    ∀ t ∈ ((Stmt.revokeUserTokens user reason).answer i db).2.tokens.rows, t.userId = user →
      t.status ≠ .active := by
  obtain ⟨tokens, ht, -, hdb⟩ := Db.updateTokens_ok (Stmt.answer_ok h).2
  rw [hdb]
  intro t hm hu
  rw [show ({ db with tokens } : Db).tokens.rows = _ from (Table.update_eq_ok ht).2] at hm
  obtain ⟨s, -, rfl⟩ := List.mem_map.mp hm
  split
  next => exact PortalTokenStatus.noConfusion
  next hp =>
    rw [if_neg hp] at hu
    intro ha
    simp [hu, ha] at hp

theorem revokePending_sweeps {db : Db} {i : Env} {email reason : String} {n : Nat}
    (h : ((Stmt.revokePending email reason).answer i db).1 = .ok n) :
    ∀ v ∈ ((Stmt.revokePending email reason).answer i db).2.invites.rows, v.recipientEmail = email →
      v.status ≠ .pending := by
  obtain ⟨invites, hv, -, hdb⟩ := Db.updateInvites_ok (Stmt.answer_ok h).2
  rw [hdb]
  intro v hm he
  rw [show ({ db with invites } : Db).invites.rows = _ from (Table.update_eq_ok hv).2] at hm
  obtain ⟨s, -, rfl⟩ := List.mem_map.mp hm
  split
  next => exact PortalInviteStatus.noConfusion
  next hp =>
    rw [if_neg hp] at he
    intro ha
    simp [he, ha] at hp

theorem sweepAccess_sweeps (user : Uuid) (email reason actor : String) (w : World) :
    Leaves (Db.Swept user email) (sweepAccess user email reason actor) w := by
  unfold sweepAccess revokeAllBearers
  have tokens_congr : ∀ db db', TableName.tokens.Same db db' →
      (∀ t ∈ db.tokens.rows, t.userId = user → t.status ≠ .active) →
      ∀ t ∈ db'.tokens.rows, t.userId = user → t.status ≠ .active := fun db db' hs h => by
    rw [show db'.tokens = db.tokens from hs]
    exact h
  simp only [Prog.bind_eq, Prog.bind_assoc]
  refine leaves_query fun i n hn => leaves_bind fun i₁ _ hb => leaves_query fun i₂ m hm => leaves_ret ⟨?_, ?_⟩
  · refine tokens_congr _ _ (act_spares (n := .tokens) (a := .sql (.revokePending email reason)) ?_ i₂ _)
      (tokens_congr _ _ (run_spares (n := .tokens) ?_ i₁ _) (revokeUserTokens_sweeps hn))
    · simp [Act.Spares, Stmt.writes]
    · split
      · exact .bind (all_query (by simp [Act.Spares, Stmt.writes])) fun _ => trivial
      · trivial
  · exact revokePending_sweeps hm

theorem revokeUserTokens_answer {i : Env} (db : Db) (user : Uuid) {reason : String}
    (hreason : withinLength 120 reason = true)
    (hf : i.fault = none) :
    ∃ n tokens, (Stmt.revokeUserTokens user reason).answer i db = (.ok n, { db with tokens }) ∧
      tokens.rows = db.tokens.rows.map fun t =>
        if t.userId = user && t.status = .active then t.revoke reason i.now.stored else t := by
  have hset : optionally (withinLength 120) (some reason) = true := hreason
  obtain ⟨tokens, ht, hrows⟩ : ∃ tokens, db.tokens.update (fun t => t.userId = user && t.status = .active)
      (·.revoke reason i.now.stored) (fun _ => rfl) (fun _ => rfl) = .ok (_, tokens) ∧ tokens.rows = _ :=
    Table.update_ok db.tokens fun t hm _ => by
      have hc := db.tokens.checked t hm
      simp only [Schema.broken, tokenSchema, PortalToken.revoke, Option.map_eq_none_iff, List.find?_eq_none,
        List.mem_cons, List.not_mem_nil, or_false, forall_eq_or_imp, forall_eq] at hc ⊢
      simp only [hc, hset, Bool.not_true, Bool.false_eq_true, not_false_eq_true, and_self]
  exact ⟨_, tokens,
    Stmt.answer_of_ok hf (by simp only [Stmt.exec, Db.updateTokens, Db.written, ht]; rfl), hrows⟩

theorem revokeUserTokens_succeeds {i : Env} (db : Db) (user : Uuid) {reason : String}
    (hreason : withinLength 120 reason = true)
    (hf : i.fault = none) : ∃ n, ((Stmt.revokeUserTokens user reason).answer i db).1 = .ok n := by
  obtain ⟨n, tokens, h, -⟩ := revokeUserTokens_answer db user hreason hf
  exact ⟨n, congrArg Prod.fst h⟩

theorem revokePending_answer {i : Env} (db : Db) (email : String) {reason : String}
    (hreason : withinLength 120 reason = true)
    (hf : i.fault = none) :
    ∃ n invites, (Stmt.revokePending email reason).answer i db = (.ok n, { db with invites }) ∧
      invites.rows = db.invites.rows.map fun v =>
        if v.recipientEmail = email && v.status = .pending then v.revoke reason i.now.stored else v := by
  have hset : optionally (withinLength 120) (some reason) = true := hreason
  obtain ⟨invites, hv, hrows⟩ : ∃ invites,
      db.invites.update (fun v => v.recipientEmail = email && v.status = .pending)
      (·.revoke reason i.now.stored) (fun _ => rfl) (fun _ => rfl) = .ok (_, invites) ∧ invites.rows = _ :=
    Table.update_ok db.invites fun v hm _ => by
      have hc := db.invites.checked v hm
      simp only [Schema.broken, inviteSchema, PortalInvite.revoke, Option.map_eq_none_iff, List.find?_eq_none,
        List.mem_cons, List.not_mem_nil, or_false, forall_eq_or_imp, forall_eq] at hc ⊢
      simp only [hc, hset, Bool.not_true, Bool.false_eq_true, not_false_eq_true, and_self]
  exact ⟨_, invites,
    Stmt.answer_of_ok hf (by simp only [Stmt.exec, Db.updateInvites, Db.written, hv]; rfl), hrows⟩

theorem revokePending_succeeds {i : Env} (db : Db) (email : String) {reason : String}
    (hreason : withinLength 120 reason = true)
    (hf : i.fault = none) : ∃ n, ((Stmt.revokePending email reason).answer i db).1 = .ok n := by
  obtain ⟨n, invites, h, -⟩ := revokePending_answer db email hreason hf
  exact ⟨n, congrArg Prod.fst h⟩

theorem sweepAccess_succeeds (user : Uuid) (email : String) {reason : String} (actor : String)
    (hreason : withinLength 120 reason = true) {i : Nat → Env} (w : World) (hi : ∀ n, (i n).fault = none) :
    ((sweepAccess user email reason actor).run portalMachine i w).1 = .ok true := by
  have pending : ∀ (i : Nat → Env) (w : World), (∀ n, (i n).fault = none) →
      (((query (.revokePending email reason)).bind fun _ => pure true : Verb Bool).run
        portalMachine i w).1 = .ok true := by
    intro i w hi
    obtain ⟨n, hn⟩ := revokePending_succeeds w.db email hreason (hi 0)
    rw [run_query_ok i w (Prod.ext hn rfl)]
    rfl
  unfold sweepAccess revokeAllBearers
  simp only [Prog.bind_eq, Prog.bind_assoc]
  obtain ⟨n, hn⟩ := revokeUserTokens_succeeds w.db user hreason (hi 0)
  rw [run_query_ok i w (Prod.ext hn rfl)]
  split
  · rw [Prog.bind_assoc, run_query_ok _ _ (appendAudit_answer (hi 1))]
    exact pending _ _ fun n => hi _
  · exact pending _ _ fun n => hi _

theorem sweepAccess_ends (user : Uuid) (email reason actor : String) :
    (sweepAccess user email reason actor).Ends fun o => o = .ok true ∨ ∃ e, o = .error (.err e) := by
  have hquery : ∀ (q : Stmt) (f : q.Res → Verb Bool),
      (∀ r, (f r).Ends fun o => o = .ok true ∨ ∃ e, o = .error (.err e)) →
      ((query q).bind f).Ends fun o => o = .ok true ∨ ∃ e, o = .error (.err e) := by
    intro q f hf r
    cases r with
    | ok r => exact hf r
    | error e => exact .inr ⟨_, rfl⟩
  have hpending := hquery (.revokePending email reason) (fun _ => pure true) fun _ => .inl rfl
  unfold sweepAccess revokeAllBearers
  simp only [Prog.bind_eq, Prog.bind_assoc]
  apply hquery _ _
  intro n
  split
  · simp only [Prog.bind_assoc]
    exact hquery _ _ fun _ => hpending
  · exact hpending

def FlippedUsers (user : Uuid) (reason : String) (now : Instant) (before after : Table userSchema) : Prop :=
  after.rows = before.rows.map fun u =>
    if u.id = user && u.status ≠ .revoked && u.live then u.revoke reason now else u

theorem FlippedUsers.idle {db : Db} {user : Uuid} {reason : String} {now : Instant} {users : Table userSchema}
    (h : FlippedUsers user reason now db.users users) (hn : db.revocable user = none) : users = db.users := by
  refine Table.ext (Eq.trans h ?_)
  refine (List.map_congr_left fun u hu => if_neg fun hp => ?_).trans (List.map_id _)
  simp only [Bool.and_eq_true, decide_eq_true_eq] at hp
  have hget : db.users.get user = some u := hp.1.1 ▸ Table.get_key hu
  rw [Db.revocable, hget, Option.filter_some, if_pos (by simp [hp.1.2, hp.2])] at hn
  cases hn

theorem Db.revocable_eq_some {db : Db} {user : Uuid} {u : PortalUser} :
    db.revocable user = some u ↔ db.users.get user = some u ∧ u.status ≠ .revoked ∧ u.live = true := by
  rw [Db.revocable, Option.filter_eq_some_iff]
  simp only [Bool.and_eq_true, decide_eq_true_eq]

theorem FlippedUsers.get {user : Uuid} {reason : String} {now : Instant} {before after : Table userSchema}
    (h : FlippedUsers user reason now before after) (id : Uuid) :
    after.get id = (before.get id).map fun u =>
      if u.id = user && u.status ≠ .revoked && u.live then u.revoke reason now else u := by
  have hkey : ∀ u : PortalUser,
      userSchema.key (if u.id = user && u.status ≠ .revoked && u.live then u.revoke reason now else u) =
        userSchema.key u := by
    intro u
    split
    · rfl
    · rfl
  simp only [Table.get, show after.rows = _ from h, List.find?_map, Function.comp_def, hkey]

theorem FlippedUsers.flipped {db : Db} {user : Uuid} {reason : String} {now : Instant}
    {after : Table userSchema}
    {u : PortalUser} (h : FlippedUsers user reason now db.users after) (hu : db.revocable user = some u) :
    after.get user = some (u.revoke reason now) := by
  obtain ⟨hget, hs, hl⟩ := Db.revocable_eq_some.mp hu
  have hid : u.id = user := (Table.get_eq_some.mp hget).2
  rw [h.get, hget, Option.map_some, if_pos (by simp [hid, hs, hl])]

theorem FlippedUsers.other {user other : Uuid} {reason : String} {now : Instant}
    {before after : Table userSchema}
    (h : FlippedUsers user reason now before after) (hne : other ≠ user) :
    after.get other = before.get other := by
  rw [h.get]
  cases hg : before.get other with
  | none => rfl
  | some v =>
    have hid : v.id = other := (Table.get_eq_some.mp hg).2
    rw [Option.map_some, if_neg (by simp [hid, hne])]

theorem sweepAccess_run (user : Uuid) (email : String) {reason : String} (actor : String)
    (hreason : withinLength 120 reason = true) (i : Nat → Env) (w : World) :
    ∃ w', w'.db.users = w.db.users ∧ w.db.Records (fun event => event.action = "bearer_revoked") w'.db ∧
      ((sweepAccess user email reason actor).run portalMachine i w = (.ok true, w') ∧ w'.db.Swept user email ∨
        (∃ n, (i n).fault ≠ none) ∧
          ∃ e, (sweepAccess user email reason actor).run portalMachine i w = (.error (.err e), w')) := by
  have hsucceeds := sweepAccess_succeeds user email actor hreason (i := i) w
  have husers := run_spares (n := .users) (sweepAccess_spares_users user email reason actor) i w
  have hrecords := run_records (sweepAccess_records user email reason actor) i w
  have hends := Prog.run_ends portalMachine (sweepAccess_ends user email reason actor) i w
  have hsweeps := sweepAccess_sweeps user email reason actor w i
  generalize (sweepAccess user email reason actor).run portalMachine i w =
    o at hsucceeds husers hrecords hends hsweeps ⊢
  obtain ⟨o, w'⟩ := o
  refine ⟨w', husers, hrecords, ?_⟩
  rcases hends with rfl | ⟨e, rfl⟩
  · exact .inl ⟨rfl, hsweeps true rfl⟩
  · refine .inr ⟨?_, e, rfl⟩
    by_contra hno
    have hi : ∀ n, (i n).fault = none := fun n => by_contra fun hf => hno ⟨n, hf⟩
    cases hsucceeds hi

/-- How a `revoke_access` ends: at the flip, with nothing to flip, in the sweeps,
or with everything swept. -/
inductive AccessRun (user : Uuid) (reason : String) (i : Nat → Env) (w : World) :
    Except Halt Bool × World → Prop where
  | unflipped (e : SqlError) (fault : (i 0).fault ≠ none) :
    AccessRun user reason i w (.error (.err (.db e)), { w with clock := (i 0).now })
  | already (flip : (i 0).fault = none) (done : w.db.revocable user = none) :
    AccessRun user reason i w (.ok false, { w with clock := (i 0).now })
  | broken (e : PortalError) (u : PortalUser) (w' : World) (flip : (i 0).fault = none)
      (fault : ∃ n, (i n).fault ≠ none)
      (found : w.db.revocable user = some u)
      (users : FlippedUsers user reason (i 0).now.stored w.db.users w'.db.users)
      (records : w.db.Records (fun event => event.action = "bearer_revoked") w'.db) :
    AccessRun user reason i w (.error (.err e), w')
  | swept (u : PortalUser) (w' : World) (flip : (i 0).fault = none) (found : w.db.revocable user = some u)
      (users : FlippedUsers user reason (i 0).now.stored w.db.users w'.db.users)
      (records : w.db.Records (fun event => event.action = "bearer_revoked") w'.db)
      (sweeps : w'.db.Swept user u.email) :
    AccessRun user reason i w (.ok true, w')

theorem revokeAccess_run (user : Uuid) {reason : String} (hreason : withinLength 120 reason = true)
    (actor : String)
    (i : Nat → Env) (w : World) :
    AccessRun user reason i w ((revokeAccess user reason actor).run portalMachine i w) := by
  rw [revokeAccess_eq]
  rcases run_query i w (.revokeUser user reason) _ with ⟨e, hfail, hrun⟩ | ⟨r, hr, hrun⟩
  · rw [hrun]
    refine .unflipped e fun hf => ?_
    obtain ⟨users, hok, -⟩ := revokeUser_answer hreason hf
    cases (congrArg Prod.fst hok).symm.trans hfail
  · have hf := (Stmt.answer_ok hr).1
    obtain ⟨users, hok, hrows⟩ := revokeUser_answer hreason hf
    cases (congrArg Prod.fst hok).symm.trans hr
    rw [hrun, hok]
    cases hu : w.db.revocable user with
    | none =>
      cases FlippedUsers.idle hrows hu
      exact .already hf hu
    | some u =>
      obtain ⟨w', husers, hrecords, ⟨hsweep, hswept⟩ | ⟨⟨n, hn⟩, e, hsweep⟩⟩ :=
        sweepAccess_run user u.email actor hreason
        (from_ 1 i) { w with db := { w.db with users }, clock := (i 0).now }
      · exact hsweep ▸ .swept u w' hf hu (husers ▸ hrows) hrecords hswept
      · exact hsweep ▸ .broken e u w' hf ⟨n + 1, hn⟩ hu (husers ▸ hrows) hrecords

/-- How a delivery of a gone event ends: at the lookup, at the flip, in the
sweeps or at the audit row after them, or with nothing left to do. -/
inductive GoneRun (i : Nat → Env) (w : World) (env : Envelope) (sapiens : Uuid) :
    Except Halt Unit × World → Prop where
  | unread (message : String) (fault : (i 0).fault ≠ none) :
    GoneRun i w env sapiens (.error (.event handlerName message), { w with clock := (i 0).now })
  | nobody (linked : w.db.linked (i 0).scan sapiens = none) :
    GoneRun i w env sapiens (.ok (), { w with clock := (i 0).now })
  | unflipped (message : String) (fault : (i 1).fault ≠ none) :
    GoneRun i w env sapiens (.error (.event handlerName message), { w with clock := (i 1).now })
  | already (user : Uuid) (linked : w.db.linked (i 0).scan sapiens = some user)
    (done : w.db.revocable user = none) :
    GoneRun i w env sapiens (.ok (), { w with clock := (i 1).now })
  | broken (message : String) (user : Uuid) (u : PortalUser) (w' : World)
      (read : (i 0).fault = none ∧ (i 1).fault = none)
      (fault : ∃ n, (i n).fault ≠ none)
      (linked : w.db.linked (i 0).scan sapiens = some user) (found : w.db.revocable user = some u)
      (users : FlippedUsers user ("lifecycle:" ++ env.eventType) (i 1).now.stored w.db.users w'.db.users)
      (records : w.db.Records (fun event => event.action = "bearer_revoked") w'.db) :
    GoneRun i w env sapiens (.error (.event handlerName message), w')
  | swept (user : Uuid) (u : PortalUser) (db : Db) (now : Instant) (w' : World)
      (linked : w.db.linked (i 0).scan sapiens = some user) (found : w.db.revocable user = some u)
      (users : FlippedUsers user ("lifecycle:" ++ env.eventType) (i 1).now.stored w.db.users db.users)
      (records : w.db.Records (fun event => event.action = "bearer_revoked") db)
      (sweeps : db.Swept user u.email)
      (after : w'.db = db.appended (lifecycleEvent "lifecycle_access_revoked" env (some user) sapiens) now) :
    GoneRun i w env sapiens (.ok (), w')

theorem gone_reason {env : Envelope} (h : env.eventType ∈ userGone) :
    withinLength 120 ("lifecycle:" ++ env.eventType) = true := by
  have each : ∀ type ∈ userGone, withinLength 120 ("lifecycle:" ++ type) = true := by decide
  exact each _ h

theorem gone_not_created {env : Envelope} (h : env.eventType ∈ userGone) : env.eventType ≠ userCreated := by
  intro he
  rw [he] at h
  exact absurd h (by decide)

theorem gone_run (he : env.Ends sapiens) (i : Nat → Env) (w : World) :
    GoneRun i w env sapiens ((P.handle env).run portalMachine i w) := by
  obtain ⟨hty, payload, hread, hid⟩ := he
  simp only [Portal.handle, if_neg (gone_not_created hty), if_pos hty, Portal.onUserGone,
    hread, hid, Prog.bind_eq]
  rcases run_busQuery (P := P) i w "principal lookup" (.principalByLink sapiens) _ with
    ⟨e, m, hfail, hrun⟩ | ⟨r, hr, hrun⟩
  · rw [hrun]
    refine .unread m fun hf => ?_
    rw [show (Stmt.principalByLink sapiens).answer (i 0) w.db =
      (.ok _, w.db) from Stmt.answer_of_ok hf rfl] at hfail
    cases hfail
  have hf₀ := (Stmt.answer_ok hr).1
  rw [show (Stmt.principalByLink sapiens).answer (i 0) w.db = (.ok (w.db.linked (i 0).scan sapiens), w.db) from
    Stmt.answer_of_ok hf₀ rfl] at hr hrun
  cases hr
  rw [hrun]
  cases hl : w.db.linked (i 0).scan sapiens with
  | none => exact .nobody hl
  | some user =>
    dsimp only
    rw [Prog.run_bind, Prog.run_mapErr]
    have haccess := revokeAccess_run user (gone_reason hty) "lifecycle" (from_ 1 i)
      { w with clock := (i 0).now }
    generalize (revokeAccess user ("lifecycle:" ++ env.eventType) "lifecycle").run portalMachine (from_ 1 i)
      { w with clock := (i 0).now } = o at haccess
    cases haccess with
    | unflipped e fault => exact .unflipped _ fault
    | already flip done => exact .already user hl done
    | broken e u w' flip fault found users records =>
      obtain ⟨n, hn⟩ := fault
      exact .broken _ user u w' ⟨hf₀, flip⟩ ⟨n + 1, hn⟩ hl found users records
    | swept u w' flip found users records sweeps =>
      rcases run_lifecycleAudit (P := P) (w := w') "revocation audit"
        "lifecycle_access_revoked" (some user) with ⟨m, hf, haudit⟩ | ⟨-, haudit⟩
      · exact (congrArg (GoneRun i w env sapiens) haudit).mpr
          (.broken m user u _ ⟨hf₀, flip⟩ ⟨_, hf⟩ hl found users records)
      · exact (congrArg (GoneRun i w env sapiens) haudit).mpr
          (.swept user u w'.db _ _ hl found users records sweeps rfl)

theorem handle_ok {i : Nat → Env} {w w' : World} (h : (P.handle env).run portalMachine i w = (.ok (), w')) :
    (∃ email sapiens, env.Creates P email sapiens) ∨ ∃ sapiens, env.Ends sapiens := by
  unfold Portal.handle at h
  split at h
  next hty =>
    unfold Portal.onCreated at h
    split at h
    · cases h
    next payload hread =>
      split at h
      · cases h
      next sapiens hid => exact .inl ⟨_, sapiens, hty, payload, hread, hid, rfl⟩
  next =>
    split at h
    next hty =>
      unfold Portal.onUserGone at h
      split at h
      · cases h
      next payload hread =>
        split at h
        · cases h
        next sapiens hid => exact .inr ⟨sapiens, hty, payload, hread, hid⟩
    next => cases h

/-! ## Whom an accepted event reaches -/

def Db.LinkedRevoked (sapiens : Uuid) (db : Db) : Prop :=
  ∀ u ∈ db.users.rows, u.live = true → u.sapiensUserId = some sapiens → u.status = .revoked

theorem Db.linked_any {db : Db} {u : PortalUser} (hu : u ∈ db.users.rows) (hl : u.live = true)
    (hs : u.sapiensUserId = some sapiens) : ∃ scan, db.linked scan sapiens = some u.id := by
  have hm : u ∈ db.users.rows.filter fun u => u.sapiensUserId = some sapiens && u.live := by
    simp [hu, hs, hl]
  obtain ⟨scan, hscan⟩ := exists_reorder_head hm
  exact ⟨scan, by rw [Db.linked, hscan, Option.map_some]⟩

theorem gone_reaches_iff {w' : World} (he : env.Ends sapiens)
    (h : (P.handle env).run portalMachine i w = (.ok (), w')) :
    w'.db.LinkedRevoked sapiens ↔ ∀ u ∈ w.db.users.rows, u.live = true → u.sapiensUserId = some sapiens →
      u.status ≠ .revoked → w.db.linked (i 0).scan sapiens = some u.id := by
  have hrun := gone_run (P := P) he i w
  rw [h] at hrun
  generalize hout : ((.ok (), w') : Except Halt Unit × World) = out at hrun
  cases hrun with
  | unread message fault => cases hout
  | nobody linked =>
    cases hout
    exact ⟨fun _ u hu hl hs => absurd hs (Db.linked_eq_none linked u hu hl),
      fun _ u hu hl hs => absurd hs (Db.linked_eq_none linked u hu hl)⟩
  | unflipped message fault => cases hout
  | already user linked done =>
    cases hout
    constructor
    · intro hrevoked u hu hl hs hns
      exact absurd (hrevoked u hu hl hs) hns
    · intro honly u hu hl hs
      by_contra hns
      have hid := Option.some.inj (linked.symm.trans (honly u hu hl hs hns))
      have hfound : w.db.revocable user = some u :=
        Db.revocable_eq_some.mpr ⟨Table.get_eq_some.mpr ⟨hu, hid.symm⟩, hns, hl⟩
      cases hfound.symm.trans done
  | broken message user u w' read fault linked found users records => cases hout
  | swept user u db now w' linked found users records sweeps after =>
    cases hout
    have hrows : w'.db.users = db.users := by rw [after]; rfl
    constructor
    · intro hrevoked v hv hl hs hns
      by_contra hother
      have hne : v.id ≠ user := fun he => hother (he ▸ linked)
      have hget : w'.db.users.get v.id = some v := by
        rw [hrows, users.other hne]
        exact Table.get_key hv
      exact hns (hrevoked v (Table.get_eq_some.mp hget).1 hl hs)
    · intro honly v hv hl hs
      rw [hrows, show db.users.rows = _ from users] at hv
      obtain ⟨x, hx, rfl⟩ := List.mem_map.mp hv
      by_cases hp : (x.id = user && x.status ≠ .revoked && x.live) = true
      · rw [if_pos hp]
        rfl
      · rw [if_neg hp] at hl hs ⊢
        by_contra hns
        have hid := Option.some.inj ((honly x hx hl hs hns).symm.trans linked)
        exact hp (by simp [hid, hns, hl])

theorem gone_idle (he : env.Ends sapiens) (hrevoked : w.db.LinkedRevoked sapiens)
    (hi : ∀ n, (i n).fault = none) :
    ∃ w', (P.handle env).run portalMachine i w = (.ok (), w') ∧ w'.db = w.db := by
  have hrun := gone_run (P := P) he i w
  have hnone : ∀ user u, w.db.linked (i 0).scan sapiens = some user → w.db.revocable user ≠ some u := by
    intro user u hpick hfound
    obtain ⟨v, hv, hid, hs, hl⟩ := Db.linked_eq_some hpick
    obtain ⟨hget, hns, -⟩ := Db.revocable_eq_some.mp hfound
    cases hget.symm.trans (Table.get_eq_some.mpr ⟨hv, hid⟩)
    exact hns (hrevoked u hv hl hs)
  generalize (P.handle env).run portalMachine i w = out at hrun
  cases hrun with
  | unread message fault => exact absurd (hi 0) fault
  | nobody linked => exact ⟨_, rfl, rfl⟩
  | unflipped message fault => exact absurd (hi 1) fault
  | already user linked done => exact ⟨_, rfl, rfl⟩
  | broken message user u w' read fault linked found users records => exact absurd found (hnone user u linked)
  | swept user u db now w' linked found users records sweeps after => exact absurd found (hnone user u linked)

theorem gone_succeeds (he : env.Ends sapiens) (w : World) (hi : ∀ n, (i n).fault = none) :
    ∃ w', (P.handle env).run portalMachine i w = (.ok (), w') := by
  have hrun := gone_run (P := P) he i w
  generalize (P.handle env).run portalMachine i w = out at hrun
  cases hrun with
  | unread message fault => exact absurd (hi 0) fault
  | nobody linked => exact ⟨_, rfl⟩
  | unflipped message fault => exact absurd (hi 1) fault
  | already user linked done => exact ⟨_, rfl⟩
  | broken message user u w' read fault linked found users records =>
    obtain ⟨n, hn⟩ := fault
    exact absurd (hi n) hn
  | swept user u db now w' linked found users records sweeps after => exact ⟨_, rfl⟩

theorem created_succeeds (he : env.Creates P email sapiens) (w : World) (hi : ∀ n, (i n).fault = none) :
    ∃ w', (P.handle env).run portalMachine i w = (.ok (), w') := by
  have hrun := created_run he i w
  generalize (P.handle env).run portalMachine i w = out at hrun
  cases hrun with
  | unread message fault => exact absurd (hi 0) fault
  | stamped message read fault rows => exact absurd (hi 1) fault
  | audited read rows => exact ⟨_, rfl⟩

end

end BackbonePortal
