import BackbonePortal.Latest
import BackbonePortal.Sweeps
import BackbonePortal.Redelivery

/-!
# The access history

The writer gives each audit row the most specific subject of its call, the
reader of the history selects by the principal as the subject. Rows about a
bearer, which fold the principal into their payload, are not read back.
-/

namespace BackbonePortal

open Proc Tables Recent

/-! ## Whom a row was recorded for -/

def AuditEvent.portalUser (event : AuditEvent) : Option String :=
  if event.subjectType = some "portal.portal_users" then event.subjectId else event.text "portal_user_id"

/-- The object form of a detail. -/
def Json.fields : Json → List (String × Json)
  | .obj fields => fields
  | other => Json.insert "detail" other []

theorem portalUser_recordAudit {action : String} {actor : Option String}
    {user invite token : Option Uuid} {detail : Json}
    (hd : Json.Lacks "portal_user_id" detail) :
    (recordAudit action actor user invite token detail).portalUser = user.map Uuid.display := by
  -- the detail's own fields say nothing of a principal
  have hlacks : Json.text detail.fields "portal_user_id" = none := by
    cases detail with
    | obj fields => exact Json.text_lacks hd
    | _ => exact Json.text_insert_other (by decide)
  have hinvite : "invite_id" ≠ "portal_user_id" := by decide
  unfold AuditEvent.portalUser AuditEvent.text recordAudit
  cases token <;> cases invite <;> cases user <;>
    simp [Json.text_insert_self, Json.text_insert_other, hinvite] <;> exact hlacks

/-- The trail holds rows of the module's own audit call only. -/
def World.Recorded (w : World) : Prop := ∀ row ∈ w.db.trail, row.event.Recorded

def Act.Recording : Act → Prop
  | .sql (.appendAudit event) => event.Recorded
  | _ => True

theorem serve_recording (P : Portal) (t : Request) : (P.serve t).All Act.Recording := by
  refine serve_all P (fun a h => ?_) (fun _ _ _ _ _ => trivial) (fun _ _ => trivial)
    (fun _ _ => trivial) (fun _ _ _ _ _ => trivial) (fun _ _ _ => trivial) t
  cases a with
  | sql q => cases q <;> first | exact h | trivial
  | _ => trivial

theorem exec_recording (a : Act) (h : a.Recording) (i : Env) (w : World) (hw : w.Recorded) :
    World.Recorded (a.exec i w).2 := by
  unfold World.Recorded
  rcases exec_trail a i w with ⟨event, rfl, -, ht⟩ | ht
  · rw [ht]
    intro row hrow
    rcases List.mem_append.mp hrow with hrow | hrow
    · exact hw row hrow
    · rw [List.mem_singleton.mp hrow]
      exact h
  · rw [ht]
    exact hw

/-! ## What is shown -/

def accessActions : List String :=
  ["login_succeeded", "login_refused", "bearer_minted", "bearer_rotated", "bearer_revoked"]

def Db.recordedFor (db : Db) (user : Uuid) : List AuditTrail :=
  db.trail.filter fun row => row.event.action ∈ accessActions && row.event.portalUser = some user.display

def AuditTrail.onUser (row : AuditTrail) : Bool := row.event.subjectType = some "portal.portal_users"

def PortalAccessEvent.of (row : AuditTrail) : PortalAccessEvent :=
  ⟨row.event.action, row.occurredAt, row.event.actor⟩

/-- `limit.clamp(1, 100)`. -/
def historyLimit (limit : Int) : Nat := (min (max limit 1) 100).toNat

/-- The history is the latest access events recorded for the principal. -/
def Db.ShowsLatest (db : Db) (user : Uuid) (limit : Int) (shown : List PortalAccessEvent) : Prop :=
  Latest PortalAccessEvent.of (·.occurredAt) (historyLimit limit) (db.recordedFor user) shown

/-- Every access event that is recorded for the principal under another subject
is behind a full page of the others. -/
def Db.CredentialsBehind (db : Db) (user : Uuid) (limit : Int) : Prop :=
  ∀ row ∈ db.recordedFor user, row.onUser = false →
    historyLimit limit ≤ ((db.recordedFor user).filter (·.onUser)).countP fun a => row.occurredAt ≤ a.occurredAt

instance (db : Db) (user : Uuid) (limit : Int) : Decidable (db.CredentialsBehind user limit) :=
  inferInstanceAs (Decidable (∀ row ∈ db.recordedFor user, row.onUser = false →
    historyLimit limit ≤ ((db.recordedFor user).filter (·.onUser)).countP fun a =>
      row.occurredAt ≤ a.occurredAt))

theorem recordedFor_onUser (db : Db) (user : Uuid) : (db.recordedFor user).filter (·.onUser) =
    db.trail.filter fun row => row.event.subjectType = some "portal.portal_users" &&
      row.event.subjectId = some user.display && row.event.action ∈ accessActions := by
  rw [Db.recordedFor, List.filter_filter]
  apply List.filter_congr
  intro row _
  by_cases hs : row.event.subjectType = some "portal.portal_users"
  · simp [AuditTrail.onUser, AuditEvent.portalUser, hs, Bool.and_comm]
  · simp [AuditTrail.onUser, hs]

theorem accessHistory_page {user : Uuid} {n : Nat} {i : Env} {db : Db} (hf : i.fault = none) :
    ∃ part : List AuditTrail, part.Perm ((db.recordedFor user).filter (·.onUser)) ∧
      Falling (fun row => (PortalAccessEvent.of row).occurredAt) part ∧
      ((Stmt.accessHistory user n).answer i db).1 = .ok ((part.take n).map PortalAccessEvent.of) := by
  refine ⟨_, ?_, ?_, congrArg Prod.fst (Stmt.answer_of_ok hf rfl)⟩
  · rw [recordedFor_onUser]
    exact (List.mergeSort_perm _ _).trans (reorder_perm _ _)
  · refine (List.pairwise_mergeSort (fun a b c hab hbc => ?_) (fun a b => ?_) _).imp fun hab =>
      of_decide_eq_true hab
    · exact decide_eq_true (Int.le_trans (of_decide_eq_true hbc) (of_decide_eq_true hab))
    · simpa using Int.le_total (PortalAccessEvent.of b).occurredAt (PortalAccessEvent.of a).occurredAt

theorem myAccessHistory_page (principal : PortalPrincipal) (limit : Int) {i : Nat → Env}
    {w : World} (hi : (i 0).fault = none) :
    ∃ part : List AuditTrail, part.Perm ((w.db.recordedFor principal.userId).filter (·.onUser)) ∧
      Falling (fun row => (PortalAccessEvent.of row).occurredAt) part ∧
      ((myAccessHistory principal limit).run portalMachine i w).1 =
        .ok ((part.take (historyLimit limit)).map PortalAccessEvent.of) := by
  obtain ⟨part, hperm, hpart, hanswer⟩ := accessHistory_page (n := historyLimit limit) hi
  have hrun : ((query (Stmt.accessHistory principal.userId (historyLimit limit))).bind .ret).run
    portalMachine i w = _ :=
    run_query_ok i w (Prod.ext hanswer rfl)
  rw [Prog.bind_ret_right] at hrun
  exact ⟨part, hperm, hpart, congrArg Prod.fst hrun⟩

/-- Every row of the trail is recorded by a verb, for the principal of its call.
The history of a principal is the latest access events recorded for it if and
only if those under another subject are behind a full page of the others. -/
theorem history_is_latest_iff (P : Portal) (pool : Pool portalMachine Halt Reply Request)
    (ms : List (Move portalMachine Request)) (hcalls : pool.calls = []) (htrail : pool.world.db.trail = [])
    (principal : PortalPrincipal) (limit : Int) (i : Nat → Env) (hi : (i 0).fault = none) :
    let w := (pool.play P.serve ms).world
    (∀ row ∈ w.db.trail, ∃ action actor user invite token detail,
      row.event = recordAudit action actor user invite token detail ∧
      ∀ p : Uuid, row.event.portalUser = some p.display ↔ user = some p) ∧
    ∃ shown, ((myAccessHistory principal limit).run portalMachine i w).1 = .ok shown ∧
      (w.db.ShowsLatest principal.userId limit shown ↔ w.db.CredentialsBehind principal.userId limit) := by
  intro w
  constructor
  · have hw : w.Recorded := Pool.play_all P.serve (fun a h i w hw => exec_recording a h i w hw)
      (fun t => serve_recording P t) hcalls
      (by unfold World.Recorded; rw [htrail]; exact fun _ h => nomatch h) ms
    intro row hrow
    obtain ⟨action, actor, user, invite, token, detail, hevent, hd⟩ := hw row hrow
    refine ⟨action, actor, user, invite, token, detail, hevent, fun p => ?_⟩
    rw [hevent, portalUser_recordAudit hd, Option.map_eq_some_iff]
    constructor
    · rintro ⟨v, rfl, hv⟩
      rw [Uuid.display_inj hv]
    · rintro rfl
      exact ⟨p, rfl, rfl⟩
  · obtain ⟨part, hperm, hpart, hrun⟩ := myAccessHistory_page principal limit (w := w) hi
    exact ⟨_, hrun, latest_filter_iff _ _ _ _ _ hperm hpart⟩

/-- A login records its bearer and itself; the history of ten shows one of the two. -/
theorem minted_bearer_not_shown :
    let w := (Probe.quiet.play Probe.portal.serve (Probe.loggingIn 14)).world
    Concluded (Probe.quiet.play Probe.portal.serve (Probe.loggingIn 14)) ∧
    (w.db.recordedFor (Probe.uuid 2)).map (·.event.action) = ["bearer_minted", "login_succeeded"] ∧
    ∃ shown, ((myAccessHistory ⟨Probe.uuid 2, Probe.email, none⟩ 10).run portalMachine
      (fun _ => Probe.env) w).1 = .ok shown ∧
      shown.length = 1 ∧ ¬w.db.ShowsLatest (Probe.uuid 2) 10 shown := by
  intro w
  have hrows : (w.db.recordedFor (Probe.uuid 2)).map (·.event.action) =
    ["bearer_minted", "login_succeeded"] := by
    decide +kernel
  have hone : ((w.db.recordedFor (Probe.uuid 2)).filter (·.onUser)).length = 1 := by decide +kernel
  obtain ⟨part, hperm, hrun⟩ :=
    myAccessHistory_page ⟨Probe.uuid 2, Probe.email, none⟩ 10 (w := w) (i := fun _ => Probe.env) rfl
  have hlen : ((part.take (historyLimit 10)).map PortalAccessEvent.of).length = 1 := by
    rw [List.length_map, List.length_take, hperm.length_eq, hone]
    decide
  refine ⟨by decide +kernel, hrows, _, hrun.2, hlen, ?_⟩
  rintro ⟨order, horder, -, hshown⟩
  rw [hshown, List.length_map, List.length_take, horder.length_eq, ← List.length_map, hrows] at hlen
  exact absurd hlen (by decide)

/-- The history of one shows the latest of the two. -/
theorem latest_of_login_shown :
    let w := (Probe.quiet.play Probe.portal.serve (Probe.loggingIn 14)).world
    ∃ shown, ((myAccessHistory ⟨Probe.uuid 2, Probe.email, none⟩ 1).run portalMachine
      (fun _ => Probe.env) w).1 = .ok shown ∧
      w.db.ShowsLatest (Probe.uuid 2) 1 shown := by
  obtain ⟨shown, hrun, hiff⟩ := (history_is_latest_iff Probe.portal Probe.quiet (Probe.loggingIn 14) rfl rfl
    ⟨Probe.uuid 2, Probe.email, none⟩ 1 (fun _ => Probe.env) rfl).2
  exact ⟨shown, hrun, hiff.mpr (by decide +kernel)⟩

end BackbonePortal
