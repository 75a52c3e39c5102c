import BackbonePortal.Delivery
import BackbonePortal.Origins

/-!
# The standing of a principal

The status machine the schema declares, and what `revoke_access` does to the
three tables.
-/

namespace BackbonePortal

open Proc Tables

/-! ## The status machine -/

/-- The declared edges: redemption or signup, revocation, archival. -/
def PortalUserStatus.Edge : PortalUserStatus → PortalUserStatus → Prop
  | .invited, .active | .active, .revoked | .active, .archived | .invited, .archived => True
  | _, _ => False

/-- Each change of a stored principal's status is a declared edge, and an
archived principal keeps its record. -/
def Db.MovesAlong (db db' : Db) : Prop :=
  ∀ u ∈ db.users.rows, ∃ v ∈ db'.users.rows, v.id = u.id ∧ (v.status ≠ u.status → u.status.Edge v.status) ∧
    (u.status = .archived → v.status = .archived ∧ v.archivedAt = u.archivedAt)

/-- A revocation that can be written finds no principal that is invited or archived. -/
def Act.RevokesActive (a : Act) (i : Env) (db : Db) : Prop :=
  match a with
  | .sql (.revokeUser id reason) => i.fault = none → withinLength 120 reason = true →
    ∀ u, db.revocable id = some u → u.status = .active
  | _ => True

section
variable {q : Stmt} {now : Instant} {scan : Nat} {db db' : Db}

theorem Db.MovesAlong.refl (db : Db) : db.MovesAlong db :=
  fun u hu => ⟨u, hu, rfl, fun h => absurd rfl h, fun h => ⟨h, rfl⟩⟩

theorem updateUsers_moves {α : Type} {p : PortalUser → Bool} {f : PortalUser → PortalUser}
    {hk : ∀ u, userSchema.key (f u) = userSchema.key u} {hi : ∀ u, userSchema.idx (f u) = userSchema.idx u}
    {answer : List PortalUser → α} {a : α} (h : db.updateUsers p f hk hi answer = .ok (a, db'))
    (hstatus : ∀ u, (f u).status = u.status) (harchived : ∀ u, (f u).archivedAt = u.archivedAt) :
    db.MovesAlong db' := by
  obtain ⟨users, hu, -, rfl⟩ := Db.updateUsers_ok h
  intro u hm
  refine ⟨if p u then f u else u, ?_, ?_, ?_, ?_⟩
  · rw [show ({ db with users } : Db).users.rows = _ from (Table.update_eq_ok hu).2]
    exact List.mem_map.mpr ⟨u, hm, rfl⟩
  · split
    · exact hk u
    · rfl
  · split
    · exact fun hne => absurd (hstatus u) hne
    · exact fun hne => absurd rfl hne
  · split
    · exact fun ha => ⟨(hstatus u).trans ha, harchived u⟩
    · exact fun ha => ⟨ha, rfl⟩

theorem insertUser_moves {users : Table userSchema} {u : PortalUser} (h : db.users.insert u = .ok users) :
    db.MovesAlong { db with users } := by
  intro v hv
  refine ⟨v, ?_, rfl, fun hne => absurd rfl hne, fun ha => ⟨ha, rfl⟩⟩
  rw [show ({ db with users } : Db).users.rows = _ from (Table.insert_eq_ok.mp h).2]
  exact List.mem_append_left _ hv

theorem exec_moves {r : q.Res} (h : q.exec now scan db = .ok (r, db'))
    (hq : ∀ id reason, q ≠ .revokeUser id reason) :
    db.MovesAlong db' := by
  have same : db'.users = db.users → db.MovesAlong db' := by
    intro he u hu
    exact ⟨u, he ▸ hu, rfl, fun hne => absurd rfl hne, fun ha => ⟨ha, rfl⟩⟩
  cases q with
  | touchLastLogin id => exact updateUsers_moves h (fun _ => rfl) fun _ => rfl
  | stampSapiens sapiens email => exact updateUsers_moves h (fun _ => rfl) fun _ => rfl
  | updateDetails id sets => exact updateUsers_moves h (fun _ => rfl) fun _ => rfl
  | revokeUser id reason => exact absurd rfl (hq id reason)
  | insertSignup id email =>
    rcases exec_insertSignup h with ⟨users, hi, -, rfl⟩ | ⟨c, -, -, rfl⟩
    · exact insertUser_moves hi
    · exact .refl _
  | redeemInvite invite id email =>
    rcases exec_redeemInvite h with ⟨-, rfl⟩ | ⟨settled, w, -, -, -, -, -, hi⟩
    · exact .refl _
    · obtain ⟨users, hin, rfl⟩ := Db.insertUser_ok hi
      exact insertUser_moves hin
  | _ => exact same ((exec_framed _ h).users (by simp [Stmt.writes]))

theorem revokeUser_unwritten {i : Env} {user : Uuid} {reason : String}
    (hreason : withinLength 120 reason ≠ true) :
    db.MovesAlong ((Stmt.revokeUser user reason).answer i db).2 := by
  cases ha : ((Stmt.revokeUser user reason).answer i db).1 with
  | error e => rw [Stmt.answer_error ha]; exact .refl db
  | ok r =>
    obtain ⟨users, hu, -, he⟩ := Db.updateUsers_ok (Stmt.answer_ok ha).2
    obtain ⟨-, hrows⟩ := Table.update_eq_ok hu
    have keep : ∀ u ∈ db.users.rows, (u.id = user && u.status ≠ .revoked && u.live) = false := by
      intro u hm
      by_contra hp
      have hin : u.revoke reason i.now.stored ∈ users.rows := by
        rw [hrows]
        exact List.mem_map.mpr ⟨u, hm, if_pos (eq_true_of_ne_false hp)⟩
      exact hreason (reason_checked (users.checked _ hin) rfl)
    intro u hm
    refine ⟨u, ?_, rfl, fun h => absurd rfl h, fun h => ⟨h, rfl⟩⟩
    rw [he, show ({ db with users } : Db).users.rows = _ from hrows]
    exact List.mem_map.mpr ⟨u, hm, if_neg (by rw [keep u hm]; exact Bool.false_ne_true)⟩

theorem revokeUser_moves_iff {i : Env} {user : Uuid} {reason : String} (hf : i.fault = none)
    (hreason : withinLength 120 reason = true) :
    db.MovesAlong ((Stmt.revokeUser user reason).answer i db).2 ↔ ∀ u, db.revocable user = some u →
      u.status = .active := by
  obtain ⟨users, hanswer, hflip⟩ : ∃ users, (Stmt.revokeUser user reason).answer i db =
      (.ok ((db.revocable user).map (·.email)), { db with users }) ∧
      FlippedUsers user reason i.now.stored db.users users :=
    revokeUser_answer hreason hf
  rw [hanswer]
  constructor
  · intro hmoves u hu
    obtain ⟨hget, hnot, -⟩ := Db.revocable_eq_some.mp hu
    obtain ⟨hm, hid⟩ := Table.get_eq_some.mp hget
    obtain ⟨v, hv, hvid, hedge, -⟩ := hmoves u hm
    have hvget : users.get user = some v := Table.get_eq_some.mpr ⟨hv, hvid.trans hid⟩
    have hrevoked : v.status = .revoked := by
      rw [hflip.flipped hu] at hvget
      cases hvget
      rfl
    have hstep := hedge fun h => hnot (h.symm.trans hrevoked)
    rw [hrevoked] at hstep
    cases hs : u.status with
    | active => rfl
    | invited => rw [hs] at hstep; exact hstep.elim
    | revoked => exact absurd hs hnot
    | archived => rw [hs] at hstep; exact hstep.elim
  · intro hactive u hm
    refine ⟨if u.id = user && u.status ≠ .revoked && u.live then u.revoke reason i.now.stored else u, ?_, ?_⟩
    · rw [show ({ db with users } : Db).users.rows = _ from hflip]
      exact List.mem_map.mpr ⟨u, hm, rfl⟩
    · by_cases hp : (u.id = user && u.status ≠ .revoked && u.live) = true
      · rw [if_pos hp]
        simp only [ne_eq, Bool.and_eq_true, decide_eq_true_eq, decide_not, Bool.not_eq_true',
          decide_eq_false_iff_not] at hp
        have hs := hactive u (Db.revocable_eq_some.mpr ⟨Table.get_eq_some.mpr ⟨hm, hp.1.1⟩, hp.1.2, hp.2⟩)
        refine ⟨rfl, fun _ => ?_, fun ha => ?_⟩
        · rw [hs]
          trivial
        · rw [hs] at ha
          cases ha
      · rw [if_neg hp]
        exact ⟨rfl, fun h => absurd rfl h, fun h => ⟨h, rfl⟩⟩

end

theorem act_moves_iff (a : Act) (i : Env) (w : World) :
    w.db.MovesAlong (a.exec i w).2.db ↔ a.RevokesActive i w.db := by
  cases a with
  | sql q =>
    by_cases hq : ∃ id reason, q = .revokeUser id reason
    · obtain ⟨id, reason, rfl⟩ := hq
      cases hf : i.fault with
      | some text =>
        refine iff_of_true ?_ fun h => nomatch hf.symm.trans h
        show w.db.MovesAlong ((Stmt.revokeUser id reason).answer i w.db).2
        rw [Stmt.answer_fault hf]
        exact .refl _
      | none =>
        by_cases hreason : withinLength 120 reason = true
        · exact (revokeUser_moves_iff hf hreason).trans ⟨fun h _ _ => h, fun h => h hf hreason⟩
        · exact iff_of_true (revokeUser_unwritten hreason) fun _ h => absurd h hreason
    · have hne : ∀ id reason, q ≠ .revokeUser id reason := fun id reason h => hq ⟨id, reason, h⟩
      refine iff_of_true ?_ ?_
      · show w.db.MovesAlong (q.answer i w.db).2
        cases hr : (q.answer i w.db).1 with
        | error e => rw [Stmt.answer_error hr]; exact .refl _
        | ok r => exact exec_moves (Stmt.answer_ok hr).2 hne
      · cases q with
        | revokeUser id reason => exact absurd rfl (hne id reason)
        | _ => trivial
  | _ => exact iff_of_true (.refl _) trivial

def MovesPrincipals (P : Portal) (pool : Pool portalMachine Halt Reply Request)
    (m : Move portalMachine Request) : Prop :=
  pool.world.db.MovesAlong (pool.next P.serve m).world.db

/-- A revocation the move writes finds its principal active. -/
def RevokesActive (pool : Pool portalMachine Halt Reply Request) (m : Move portalMachine Request) : Prop :=
  ∀ x ∈ pool.performs m, x.1.RevokesActive x.2 pool.world.db

theorem movesPrincipals_iff (P : Portal) (pool : Pool portalMachine Halt Reply Request)
    (m : Move portalMachine Request) :
    MovesPrincipals P pool m ↔ RevokesActive pool m := by
  unfold MovesPrincipals RevokesActive
  rcases pool.next_world P.serve m with ⟨a, i, hp, hw⟩ | ⟨hp, hw⟩
  · rw [hp, hw]
    exact (act_moves_iff a i pool.world).trans ⟨fun h x hx => by cases hx; exact h, fun h => h _ rfl⟩
  · rw [hp, hw]
    exact iff_of_true (.refl _) fun x hx => nomatch hx

/-- Whatever the starting store, the calls and their interleaving, principals
move only along the declared machine exactly in the runs whose revocations all
find an active principal. -/
theorem principals_move_along_iff (P : Portal) (pool : Pool portalMachine Halt Reply Request)
    (ms : List (Move portalMachine Request)) :
    pool.Admits P.serve (MovesPrincipals P) ms ↔ pool.Admits P.serve RevokesActive ms := by
  constructor
  · exact Pool.admits_of P.serve (I := fun _ => True) (fun _ _ _ _ => trivial)
      (fun R m h _ => (movesPrincipals_iff P R m).mp h) trivial
  · exact Pool.admits_of P.serve (I := fun _ => True) (fun _ _ _ _ => trivial)
      (fun R m h _ => (movesPrincipals_iff P R m).mpr h) trivial

namespace Probe

def archived : World :=
  world { Db.empty with
    users := .single { user with status := .archived, archivedAt := some now } (by decide +kernel) }

def offboards (user : Uuid) : List (Move portalMachine Request) :=
  [.start (.revokeAccess user "offboarded" "officer"), .step 0 env]

end Probe

/-- `revoke_access` moves an archived principal to revoked. -/
theorem archived_principal_is_revoked :
    let pool : Pool portalMachine Halt Reply Request := ⟨Probe.archived, []⟩
    pool.world.db.users.rows.map (·.status) = [.archived] ∧
    (pool.play Probe.portal.serve (Probe.offboards (Probe.uuid 2))).world.db.users.rows.map
    (·.status) = [.revoked] ∧
    ¬pool.Admits Probe.portal.serve (MovesPrincipals Probe.portal) (Probe.offboards (Probe.uuid 2)) := by
  refine ⟨by decide, by decide, fun h => ?_⟩
  have hedge := h.2.1
  obtain ⟨v, hv, -, hmove, -⟩ := hedge _ (List.mem_singleton.mpr rfl)
  have hs : v.status = .revoked := by
    cases List.mem_singleton.mp hv
    rfl
  exact hmove (by rw [hs]; decide)

/-! ## The exact effect of a revocation -/

/-- The tables after `revoke_access` took `user`, whose address is `email`, away:
the principal, its active bearers and the pending invitations of the address
are revoked, each at its own instant, and nothing else changes. -/
structure Db.Revokes (user : Uuid) (email reason : String) (db db' : Db) : Prop where
  users : ∃ t, db'.users.rows = db.users.rows.map fun u => if u.id = user then u.revoke reason t else u
  tokens : ∃ t, db'.tokens.rows = db.tokens.rows.map fun s =>
    if s.userId = user ∧ s.status = .active then s.revoke reason t else s
  invites : ∃ t, db'.invites.rows = db.invites.rows.map fun v =>
    if v.recipientEmail = email ∧ v.status = .pending then v.revoke reason t else v
  policies : db'.policies = db.policies

section
variable {user : Uuid} {reason : String} {i : Nat → Env}

theorem sweepAccess_exact (user : Uuid) (email actor : String) (w : World)
    (hreason : withinLength 120 reason = true) (hi : ∀ n, (i n).fault = none) :
    ∃ w', (sweepAccess user email reason actor).run portalMachine i w = (.ok true, w') ∧
      w'.db.users = w.db.users ∧ w'.db.policies = w.db.policies ∧
      (∃ t, w'.db.tokens.rows = w.db.tokens.rows.map fun s =>
        if s.userId = user ∧ s.status = .active then s.revoke reason t else s) ∧
      ∃ t, w'.db.invites.rows = w.db.invites.rows.map fun v =>
        if v.recipientEmail = email ∧ v.status = .pending then v.revoke reason t else v := by
  have pending : ∀ (i : Nat → Env) (w : World), (∀ n, (i n).fault = none) →
      ∃ invites : Table inviteSchema, ∃ t clock,
        ((query (.revokePending email reason)).bind fun _ => pure true : Verb Bool).run portalMachine i w =
          (.ok true, { w with db := { w.db with invites }, clock }) ∧
        invites.rows = w.db.invites.rows.map fun v =>
          if v.recipientEmail = email ∧ v.status = .pending then v.revoke reason t else v := by
    intro i w hi
    obtain ⟨n, invites, hanswer, hrows⟩ := revokePending_answer w.db email hreason (hi 0)
    simp only [Bool.and_eq_true, decide_eq_true_eq] at hrows
    exact ⟨invites, _, _, run_query_ok i w hanswer, hrows⟩
  unfold sweepAccess revokeAllBearers
  simp only [Prog.bind_eq, Prog.bind_assoc]
  obtain ⟨n, tokens, hanswer, htokens⟩ := revokeUserTokens_answer w.db user hreason (hi 0)
  simp only [Bool.and_eq_true, decide_eq_true_eq] at htokens
  rw [run_query_ok i w hanswer]
  split
  · rw [Prog.bind_assoc, run_query_ok _ _ (appendAudit_answer (hi 1))]
    obtain ⟨invites, t, clock, hrun, hinvites⟩ := pending (from_ 1 (from_ 1 i)) _ fun n => hi _
    exact ⟨_, hrun, rfl, rfl, ⟨_, htokens⟩, t, hinvites⟩
  · obtain ⟨invites, t, clock, hrun, hinvites⟩ := pending (from_ 1 i) _ fun n => hi _
    exact ⟨_, hrun, rfl, rfl, ⟨_, htokens⟩, t, hinvites⟩

theorem FlippedUsers.rows {now : Instant} {db : Db} {after : Table userSchema} {u : PortalUser}
    (h : FlippedUsers user reason now db.users after) (hu : db.revocable user = some u) :
    after.rows = db.users.rows.map fun v => if v.id = user then v.revoke reason now else v := by
  obtain ⟨hget, hs, hl⟩ := Db.revocable_eq_some.mp hu
  obtain ⟨hm, hid⟩ := Table.get_eq_some.mp hget
  rw [show after.rows = _ from h]
  apply List.map_congr_left
  intro v hv
  by_cases hvid : v.id = user
  · have hvu : v = u := db.users.key_inj hv hm (hvid.trans hid.symm)
    subst hvu
    simp only [hvid, ne_eq, hs, not_false_eq_true, hl, decide_true, Bool.and_self, if_true]
  · simp only [hvid, decide_false, Bool.false_and, Bool.false_eq_true, if_false]

/-- `revoke_access` alone and without a fault answers true exactly for a live
principal that is not revoked yet, which it then takes away with its bearers
and its pending invitations, and answers false otherwise and changes nothing. -/
theorem revoke_access_exact (user : Uuid) (reason actor : String) (hreason : reason.length ≤ 120)
    (i : Nat → Env)
    (w : World) (hi : ∀ n, (i n).fault = none) :
    let out := (revokeAccess user reason actor).run portalMachine i w
    (out.1 = .ok true ↔ ∃ u, w.db.users.get user = some u ∧ u.live = true ∧ u.status ≠ .revoked) ∧
    (out.1 = .ok true → ∃ u, w.db.users.get user = some u ∧ w.db.Revokes user u.email reason out.2.db) ∧
    (out.1 ≠ .ok true → out.1 = .ok false ∧ out.2.db.tables = w.db.tables) := by
  have hreason : withinLength 120 reason = true := decide_eq_true hreason
  obtain ⟨users, hanswer, hflip⟩ : ∃ users, (Stmt.revokeUser user reason).answer (i 0) w.db =
      (.ok ((w.db.revocable user).map (·.email)), { w.db with users }) ∧
        FlippedUsers user reason (i 0).now.stored w.db.users users := revokeUser_answer hreason (hi 0)
  rw [revokeAccess_eq, run_query_ok i w hanswer]
  cases hu : w.db.revocable user with
  | none =>
    have hno : ¬∃ u, w.db.users.get user = some u ∧ u.live = true ∧ u.status ≠ .revoked := by
      rintro ⟨u, hget, hl, hs⟩
      cases hu.symm.trans (Db.revocable_eq_some.mpr ⟨hget, hs, hl⟩)
    have hsame := hflip.idle hu
    refine ⟨iff_of_false (fun h => ?_) hno, fun h => ?_, fun _ => ⟨rfl, ?_⟩⟩
    · cases h
    · cases h
    · rw [hsame]
      rfl
  | some u =>
    obtain ⟨hget, hs, hl⟩ := Db.revocable_eq_some.mp hu
    obtain ⟨w', hrun, husers, hpolicies, htokens, hinvites⟩ := sweepAccess_exact user u.email
      actor { w with db := { w.db with users }, clock := (i 0).now } hreason fun n => hi (n + 1)
    have hok : ((sweepAccess user u.email reason actor).run portalMachine (from_ 1 i)
        { w with db := { w.db with users }, clock := (i 0).now }) = (.ok true, w') := hrun
    show (_ ↔ _) ∧ _ ∧ _
    simp only [Option.map_some, hok]
    refine ⟨iff_of_true trivial ⟨u, hget, hl, hs⟩, fun _ => ⟨u, hget, ?_⟩, fun h => absurd rfl h⟩
    exact ⟨⟨_, by rw [husers]; exact hflip.rows hu⟩, htokens, hinvites, hpolicies⟩

end

/-- Revoking the enrolled principal of a store with a bearer. -/
theorem revoke_access_exact_probe :
    let out := (revokeAccess (Probe.uuid 2) "offboarded" "officer").run portalMachine (fun _ => Probe.env)
      (Probe.world Probe.admitted)
    out.1 = .ok true ∧
      (Probe.world Probe.admitted).db.Revokes (Probe.uuid 2) Probe.email "offboarded" out.2.db := by
  have h := revoke_access_exact (Probe.uuid 2) "offboarded" "officer" (by decide) (fun _ => Probe.env)
    (Probe.world Probe.admitted) (fun _ => rfl)
  have hok := h.1.mpr ⟨Probe.user, by decide, by decide, by decide⟩
  obtain ⟨u, hget, hrevokes⟩ := h.2.1 hok
  have hu : u = Probe.user := Option.some.inj (hget.symm.trans (by decide))
  subst hu
  exact ⟨hok, hrevokes⟩

end BackbonePortal
