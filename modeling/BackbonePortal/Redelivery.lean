import BackbonePortal.Atomicity
import BackbonePortal.Delivery
import BackbonePortal.LinkOrder

/-!
# Redelivery

The bus delivers an event until the handler accepts it. A retried delivery ends
as one undisturbed delivery would exactly if every failure came before the
first write, and an accepted event is not idempotent in general.
-/

namespace BackbonePortal

open Proc Tables

/-! ## Undisturbed runs -/

def Act.Failed : (a : Act) → a.Res → Prop
  | .sql _, .error _ => True
  | _, _ => False

/-- Every action is a statement whose failure ends the verb. -/
def Strict {α : Type} : Verb α → Prop
  | .ret _ => True
  | .fail _ => True
  | .act a k => (∃ q, a = .sql q) ∧ (∀ r, a.Failed r → ∃ h, k r = .fail h) ∧ ∀ r, Strict (k r)

def calm (i : Nat → Env) : Nat → Env := fun n => { i n with fault := none }

section
variable {α β : Type}

theorem Strict.bind {p : Verb α} {f : α → Verb β} (hp : Strict p) (hf : ∀ a, Strict (f a)) :
    Strict (p.bind f) := by
  induction p with
  | ret a => exact hf a
  | fail e => trivial
  | act a k ih =>
    obtain ⟨hq, hfail, hk⟩ := hp
    refine ⟨hq, fun r hr => ?_, fun r => ih r (hk r)⟩
    obtain ⟨h, he⟩ := hfail r hr
    exact ⟨h, congrArg (Prog.bind · f) he⟩

theorem Strict.mapErr {g : Halt → Halt} {p : Verb α} (hp : Strict p) : Strict (p.mapErr g) := by
  induction p with
  | ret a => trivial
  | fail e => trivial
  | act a k ih =>
    obtain ⟨hq, hfail, hk⟩ := hp
    refine ⟨hq, fun r hr => ?_, fun r => ih r (hk r)⟩
    obtain ⟨h, he⟩ := hfail r hr
    exact ⟨g h, congrArg (Prog.mapErr g) he⟩

theorem strict_query (q : Stmt) : Strict (query q) := by
  refine ⟨⟨q, rfl⟩, fun r hr => ?_, fun r => by cases r <;> trivial⟩
  cases r with
  | ok r => exact hr.elim
  | error e => exact ⟨_, rfl⟩

theorem strict_busQuery (P : Portal) (label : String) (q : Stmt) : Strict (P.busQuery label q) := by
  refine ⟨⟨q, rfl⟩, fun r hr => ?_, fun r => by cases r <;> trivial⟩
  cases r with
  | ok r => exact hr.elim
  | error e => exact ⟨_, rfl⟩

theorem Strict.run_calm {p : Verb α} (hp : Strict p) {i : Nat → Env} {w w' v : World} {r : α} (hv : v.db = w.db)
    (h : p.run portalMachine i w = (.ok r, w')) :
    ∃ v', p.run portalMachine (calm i) v = (.ok r, v') ∧ v'.db = w'.db := by
  induction p generalizing i w v with
  | ret a => cases h; exact ⟨v, rfl, hv⟩
  | fail e => cases h
  | act a k ih =>
    obtain ⟨⟨q, rfl⟩, hfail, hk⟩ := hp
    have hrun : ((k (q.answer (i 0) w.db).1).run portalMachine (from_ 1 i)
        { w with db := (q.answer (i 0) w.db).2, clock := (i 0).now }) = (.ok r, w') := h
    cases ha : (q.answer (i 0) w.db).1 with
    | error e =>
      obtain ⟨x, hx⟩ := hfail (.error e) trivial
      rw [ha, hx] at hrun
      cases hrun
    | ok x =>
      have hcalm : calm i 0 = i 0 := by
        have hf := (Stmt.answer_ok ha).1
        show { i 0 with fault := none } = i 0
        rw [← hf]
      obtain ⟨v', hv', hdb⟩ :=
        ih _ (hk _) (i := from_ 1 i) (v := { v with db := (q.answer (i 0) w.db).2, clock := (i 0).now })
        (w := { w with db := (q.answer (i 0) w.db).2, clock := (i 0).now }) rfl hrun
      refine ⟨v', ?_, hdb⟩
      rw [← hv']
      show (k (q.answer (calm i 0) v.db).1).run portalMachine (from_ 1 (calm i))
        { v with db := (q.answer (calm i 0) v.db).2, clock := (calm i 0).now } = _
      rw [hcalm, hv]
      rfl

theorem strict_revokeAccess (user : Uuid) (reason actor : String) :
    Strict (revokeAccess user reason actor) := by
  unfold revokeAccess revokeAllBearers
  refine .bind (strict_query _) fun r => ?_
  split
  · trivial
  · refine .bind (.bind (strict_query _) fun n => ?_) fun _ => .bind (strict_query _) fun _ => trivial
    split
    · exact .bind (strict_query _) fun _ => trivial
    · trivial

theorem strict_handle (P : Portal) (env : Envelope) : Strict (P.handle env) := by
  unfold Portal.handle
  split
  · unfold Portal.onCreated
    split
    · trivial
    split
    · trivial
    refine .bind (strict_busQuery P _ _) fun r => ?_
    split <;> exact strict_busQuery P _ _
  split
  · unfold Portal.onUserGone
    split
    · trivial
    split
    · trivial
    refine .bind (strict_busQuery P _ _) fun r => ?_
    split
    · trivial
    refine .bind (strict_revokeAccess _ _ _).mapErr fun flipped => ?_
    split
    · trivial
    · exact strict_busQuery P _ _
  · trivial

end

/-! ## Equal up to timestamps -/

def Metadata.timeless (m : Metadata) : Metadata :=
  { m with
    createdAt := m.createdAt.map fun _ => 0, updatedAt := m.updatedAt.map fun _ => 0
    deletedAt := m.deletedAt.map fun _ => 0 }

def PortalUser.timeless (u : PortalUser) : PortalUser :=
  { u with
    revokedAt := u.revokedAt.map fun _ => 0, archivedAt := u.archivedAt.map fun _ => 0
    lastLoginAt := u.lastLoginAt.map fun _ => 0, metadata := u.metadata.timeless }

def PortalToken.timeless (t : PortalToken) : PortalToken :=
  { t with
    rotatedAt := t.rotatedAt.map fun _ => 0, revokedAt := t.revokedAt.map fun _ => 0
    lastUsedAt := t.lastUsedAt.map fun _ => 0, metadata := t.metadata.timeless }

def PortalInvite.timeless (v : PortalInvite) : PortalInvite :=
  { v with
    redeemedAt := v.redeemedAt.map fun _ => 0, revokedAt := v.revokedAt.map fun _ => 0
    metadata := v.metadata.timeless }

def PortalSignupPolicy.timeless (p : PortalSignupPolicy) : PortalSignupPolicy :=
  { p with metadata := p.metadata.timeless }

/-- The same rows and the same audit rows, in the same order, but for their times. -/
structure Db.Alike (db db' : Db) : Prop where
  users : db.users.rows.map (·.timeless) = db'.users.rows.map (·.timeless)
  tokens : db.tokens.rows.map (·.timeless) = db'.tokens.rows.map (·.timeless)
  invites : db.invites.rows.map (·.timeless) = db'.invites.rows.map (·.timeless)
  policies : db.policies.rows.map (·.timeless) = db'.policies.rows.map (·.timeless)
  trail : db.trail.map (·.event) = db'.trail.map (·.event)

section
variable {db db₁ db₂ : Db}

theorem Db.Alike.refl (db : Db) : db.Alike db := ⟨rfl, rfl, rfl, rfl, rfl⟩

theorem Db.Alike.user (h : db₁.Alike db₂) {id : Uuid} {u : PortalUser} (hu : db₁.users.get id = some u) :
    ∃ v, db₂.users.get id = some v ∧ v.status = u.status ∧ v.sapiensUserId = u.sapiensUserId := by
  obtain ⟨hm, hid⟩ := Table.get_eq_some.mp hu
  have hin : u.timeless ∈ db₂.users.rows.map (·.timeless) := h.users ▸ List.mem_map_of_mem hm
  obtain ⟨v, hv, he⟩ := List.mem_map.mp hin
  have hfields : v.timeless.id = u.timeless.id ∧ v.timeless.status = u.timeless.status ∧
      v.timeless.sapiensUserId = u.timeless.sapiensUserId := by rw [he]; exact ⟨rfl, rfl, rfl⟩
  obtain ⟨hid', hstatus, hlink⟩ := hfields
  exact ⟨v, Table.get_eq_some.mpr ⟨hv, Eq.trans hid' hid⟩, hstatus, hlink⟩

theorem Db.Alike.records {E F : AuditEvent → Prop} (h : db₁.Alike db₂) (h₁ : db.Records E db₁)
    (h₂ : db.Records F db₂) :
    db.Records E db₂ := by
  obtain ⟨rest₁, heq₁, hall⟩ := h₁
  obtain ⟨rest₂, heq₂, -⟩ := h₂
  refine ⟨rest₂, heq₂, fun a ha => ?_⟩
  have hevents : rest₁.map (·.event) = rest₂.map (·.event) := by
    have htrail := h.trail
    rw [heq₁, heq₂, List.map_append, List.map_append] at htrail
    exact List.append_cancel_left htrail
  have hin : a.event ∈ rest₁.map (·.event) := hevents ▸ List.mem_map_of_mem ha
  obtain ⟨b, hb, he⟩ := List.mem_map.mp hin
  exact he ▸ hall b hb

theorem Db.Records.appended {E F : AuditEvent → Prop} {event : AuditEvent} {now : Instant}
    (h₁ : db.Records F db₁)
    (h : db.Records E (db₁.appended event now)) : E event := by
  obtain ⟨rest₁, heq₁, -⟩ := h₁
  obtain ⟨rest, heq, hall⟩ := h
  apply hall ⟨event, now⟩
  have hrest : rest = rest₁ ++ [⟨event, now⟩] := by
    refine (List.append_right_inj db.trail).mp ?_
    rw [← heq, ← List.append_assoc, ← heq₁]
    rfl
  rw [hrest]
  exact List.mem_append_right _ (List.mem_singleton.mpr rfl)

end

/-! ## A retried delivery -/

/-- The deliveries of an event before the accepted one, each with its inputs. -/
inductive Portal.Retried (P : Portal) (env : Envelope) : World → List (Nat → Env) → World → Prop where
  | none (w : World) : Portal.Retried P env w [] w
  | again {i : Nat → Env} {is : List (Nat → Env)} {w w₁ w₂ : World} {e : Halt}
    (failed : (P.handle env).run portalMachine i w = (.error e, w₁)) (rest : Portal.Retried P env w₁ is w₂) :
    Portal.Retried P env w (i :: is) w₂

/-- One failure-free delivery in `w` leaves a database like `db`. -/
def Portal.Converges (P : Portal) (env : Envelope) (w : World) (db : Db) : Prop :=
  ∃ i w', (∀ n, (i n).fault = none) ∧ (P.handle env).run portalMachine i w = (.ok (), w') ∧ db.Alike w'.db

/-- The one live principal with the link, when it is not revoked yet. -/
def Db.SoleLinked (db : Db) (sapiens : Uuid) (u : PortalUser) : Prop :=
  u ∈ db.users.rows ∧ u.status ≠ .revoked ∧ ∀ v ∈ db.users.rows,
    v.live = true ∧ v.sapiensUserId = some sapiens ↔ v = u

/-- The audit row of a revocation by the handler, for the principal. -/
def AuditEvent.Revokes (user : Uuid) (event : AuditEvent) : Bool :=
  event.action = "lifecycle_access_revoked" && event.subjectId = some user.display

structure Envelope.Settled (P : Portal) (env : Envelope) (before after : Db) : Prop where
  gone : ∀ sapiens u, env.Ends sapiens → before.SoleLinked sapiens u →
    (∃ v, after.users.get u.id = some v ∧ v.status = .revoked) ∧ after.Swept u.id u.email ∧
      ∃ rest, after.trail = before.trail ++ rest ∧ (rest.filter (·.event.Revokes u.id)).length = 1
  created : ∀ email sapiens u, env.Creates P email sapiens → before.unlinked email = some u →
    (∃ v, after.users.get u.id = some v ∧ v.sapiensUserId = some sapiens) ∧
      ∃ rest, after.trail = before.trail ++ rest ∧
        (∃ a ∈ rest, a.event = lifecycleEvent "onboarding_linked" env (some u.id) sapiens) ∧
        ∀ a ∈ rest, a.event.action ≠ "onboarding_no_invitation"

/-- A failure before the first write: at the first statement, at the flip, or
where the stamp finds nobody. -/
def Portal.FailsEarly (P : Portal) (env : Envelope) (db : Db) (i : Nat → Env) : Prop :=
  (i 0).fault ≠ none ∨ (env.eventType ∈ userGone ∧ (i 1).fault ≠ none) ∨
    ∃ email sapiens, env.Creates P email sapiens ∧ db.unlinked email = none

section
variable {P : Portal} {env : Envelope} {email : String} {sapiens : Uuid} {i : Nat → Env} {w w' : World}

theorem Envelope.Creates.unique {email' : String} {sapiens' : Uuid} (h : env.Creates P email sapiens)
    (h' : env.Creates P email' sapiens') : email' = email ∧ sapiens' = sapiens := by
  obtain ⟨-, payload, hread, hid, rfl⟩ := h
  obtain ⟨-, payload', hread', hid', rfl⟩ := h'
  cases hread.symm.trans hread'
  cases hid.symm.trans hid'
  exact ⟨rfl, rfl⟩

theorem Envelope.Ends.unique {sapiens' : Uuid} (h : env.Ends sapiens) (h' : env.Ends sapiens') :
    sapiens' = sapiens := by
  obtain ⟨-, payload, hread, hid⟩ := h
  obtain ⟨-, payload', hread', hid'⟩ := h'
  cases hread.symm.trans hread'
  cases hid.symm.trans hid'
  rfl

theorem Envelope.Ends.not_creates (h : env.Ends sapiens) {sapiens' : Uuid} : ¬env.Creates P email sapiens' :=
  fun hc => gone_not_created h.1 hc.1

theorem Portal.Retried.keeps {E : (Nat → Env) → Prop} {L : Db → Prop} {db : Db} {is : List (Nat → Env)}
    (first : ∀ i w e w', (P.handle env).run portalMachine i w = (.error e, w') → w.db = db →
      (E i ∧ w'.db = db) ∨ (¬E i ∧ L w'.db))
    (keep : ∀ i w o w', (P.handle env).run portalMachine i w = (o, w') → L w.db → L w'.db)
    (h : P.Retried env w is w') (hw : w.db = db ∨ L w.db) :
    (L w.db → L w'.db) ∧ (w.db = db → ((∀ i ∈ is, E i) ∧ w'.db = db) ∨ ((¬∀ i ∈ is, E i) ∧ L w'.db)) := by
  induction h with
  | none w => exact ⟨id, fun h => .inl ⟨(fun _ hi => nomatch hi), h⟩⟩
  | @again i is w w₁ w₂ e failed rest ih =>
    constructor
    · intro hl
      have hl₁ := keep i w _ w₁ failed hl
      exact (ih (.inr hl₁)).1 hl₁
    · intro hdb
      rcases first i w e w₁ failed hdb with ⟨hi, h₁⟩ | ⟨hi, h₁⟩
      · rcases (ih (.inl h₁)).2 h₁ with ⟨hall, h₂⟩ | ⟨hnot, h₂⟩
        · exact .inl ⟨List.forall_mem_cons.mpr ⟨hi, hall⟩, h₂⟩
        · exact .inr ⟨fun h => hnot (List.forall_mem_cons.mp h).2, h₂⟩
      · exact .inr ⟨fun h => hi (List.forall_mem_cons.mp h).1, (ih (.inr h₁)).1 h₁⟩

theorem converges_of_unchanged {w₁ : World} (h : w₁.db = w.db)
    (hok : (P.handle env).run portalMachine i w₁ = (.ok (), w')) : P.Converges env w w'.db := by
  obtain ⟨v, hv, hdb⟩ := (strict_handle P env).run_calm h.symm hok
  exact ⟨calm i, v, fun _ => rfl, hv, hdb ▸ .refl _⟩

/-! ## The onboarding arm -/

structure LinkUnaudited (email : String) (db₀ db : Db) : Prop where
  linked : db.unlinked email = none
  unaudited : db₀.Records (fun event => event.action ≠ "onboarding_linked") db

theorem created_keeps {o : Except Halt Unit} {db₀ : Db} (he : env.Creates P email sapiens)
    (h : (P.handle env).run portalMachine i w = (o, w')) (hl : LinkUnaudited email db₀ w.db) :
    LinkUnaudited email db₀ w'.db := by
  obtain ⟨hlinked, hrecords⟩ := hl
  have hrun := created_run he i w
  rw [h] at hrun
  generalize hout : (o, w') = out at hrun
  cases hrun with
  | unread message fault => cases hout; exact ⟨hlinked, hrecords⟩
  | stamped message read fault rows =>
    cases hout
    cases stamp_idle rows hlinked
    exact ⟨hlinked, hrecords⟩
  | audited read rows =>
    cases hout
    cases stamp_idle rows hlinked
    refine ⟨hlinked, hrecords.trans
      (.mono ?_ (Db.appended_records (E := (· = createdEvent env sapiens w.db email)) rfl _))⟩
    rintro event rfl
    rw [createdEvent, hlinked]
    exact fun h => absurd h (by decide : ("onboarding_no_invitation" : String) ≠ "onboarding_linked")

theorem created_fails {e : Halt} (he : env.Creates P email sapiens)
    (h : (P.handle env).run portalMachine i w = (.error e, w')) :
    (P.FailsEarly env w.db i ∧ w'.db = w.db) ∨
      (¬P.FailsEarly env w.db i ∧ w.db.unlinked email ≠ none ∧ LinkUnaudited email w.db w'.db) := by
  have hrun := created_run he i w
  rw [h] at hrun
  generalize hout : ((.error e, w') : Except Halt Unit × World) = out at hrun
  cases hrun with
  | unread message fault => cases hout; exact .inl ⟨.inl fault, rfl⟩
  | stamped message read fault rows =>
    cases hout
    by_cases hun : w.db.unlinked email = none
    · cases stamp_idle rows hun
      exact .inl ⟨.inr (.inr ⟨email, sapiens, he, hun⟩), rfl⟩
    · refine .inr ⟨?_, hun, stamp_links rows, .same rfl⟩
      rintro (h | ⟨hgone, -⟩ | ⟨email', sapiens', he', hun'⟩)
      · exact h read
      · exact gone_not_created hgone he.1
      · cases (he.unique he').1
        exact hun hun'
  | audited read rows => cases hout

theorem created_accepted (he : env.Creates P email sapiens)
    (h : (P.handle env).run portalMachine i w = (.ok (), w')) :
    ∃ users : Table userSchema, (users.rows = w.db.users.rows.map fun u =>
        if u.email = email && u.sapiensUserId.isNone && u.live then u.link sapiens (i 0).now.stored else u) ∧
      w'.db = { w.db with users }.appended (createdEvent env sapiens w.db email) (i 1).now.stored := by
  have hrun := created_run he i w
  rw [h] at hrun
  generalize hout : ((.ok (), w') : Except Halt Unit × World) = out at hrun
  cases hrun with
  | unread message fault => cases hout
  | stamped message read fault rows => cases hout
  | audited read rows => cases hout; exact ⟨_, rows, rfl⟩

theorem created_settled (he : env.Creates P email sapiens)
    (h : (P.handle env).run portalMachine i w = (.ok (), w')) :
    env.Settled P w.db w'.db := by
  obtain ⟨users, rows, hdb⟩ := created_accepted he h
  refine ⟨fun _ _ hends => absurd he hends.not_creates, fun email' sapiens' u he' hu => ?_⟩
  obtain ⟨rfl, rfl⟩ := he.unique he'
  obtain ⟨hp, hnone⟩ := Db.unlinked_eq_some.mp hu
  obtain ⟨hm, hl, hemail⟩ := Db.principal_eq_some.mp hp
  rw [hdb]
  refine ⟨⟨u.link sapiens' (i 0).now.stored, Table.get_eq_some.mpr ⟨?_, rfl⟩, rfl⟩, _, rfl, ?_, ?_⟩
  · refine (show users.rows = _ from rows) ▸ List.mem_map.mpr ⟨u, hm, if_pos ?_⟩
    simp [hemail, hnone, hl]
  · exact ⟨_, List.mem_singleton.mpr rfl, by rw [createdEvent, hu]⟩
  · intro a ha
    cases List.mem_singleton.mp ha
    rw [createdEvent, hu]
    exact fun h => absurd h (by decide : ("onboarding_linked" : String) ≠ "onboarding_no_invitation")

theorem created_diverges {db : Db} (he : env.Creates P email sapiens) (hun : w.db.unlinked email ≠ none)
    (hl : LinkUnaudited email w.db db) : ¬P.Converges env w db := by
  rintro ⟨j, v, -, hj, halike⟩
  obtain ⟨users, -, hdb⟩ := created_accepted he hj
  have hsame : w.db.Records (fun _ => True) ({ w.db with users } : Db) := .same rfl
  have hrecords : w.db.Records (fun _ => True) v.db := hdb ▸ hsame.trans (Db.appended_records trivial _)
  have hnone := halike.records hl.unaudited hrecords
  rw [hdb] at hnone
  have hevent := hsame.appended hnone
  obtain ⟨u, hu⟩ := Option.ne_none_iff_exists'.mp hun
  rw [createdEvent, hu] at hevent
  exact hevent rfl

/-! ## The revocation arm -/

/-- The principal is revoked, and no audit row of the handler says so. -/
structure FlipUnaudited (user : Uuid) (db₀ db : Db) : Prop where
  revoked : ∃ v, db.users.get user = some v ∧ v.status = .revoked
  unaudited : db₀.Records (fun event => event.Revokes user = false) db

theorem swept_unaudited (user : Uuid) (event : AuditEvent) (h : event.action = "bearer_revoked") :
    event.Revokes user = false := by
  simp [AuditEvent.Revokes, h]

theorem lifecycle_unaudited {user other : Uuid} (hne : other ≠ user) :
    (lifecycleEvent "lifecycle_access_revoked" env (some other) sapiens).Revokes user = false := by
  have hdisplay : other.display ≠ user.display := fun h => hne (Uuid.display_inj h)
  simp [AuditEvent.Revokes, lifecycleEvent, recordAudit, hdisplay]

theorem lifecycle_audited (user : Uuid) :
    (lifecycleEvent "lifecycle_access_revoked" env (some user) sapiens).Revokes user = true := by
  simp [AuditEvent.Revokes, lifecycleEvent, recordAudit]

theorem gone_keeps {o : Except Halt Unit} {db₀ : Db} {user : Uuid} (he : env.Ends sapiens)
    (h : (P.handle env).run portalMachine i w = (o, w')) (hl : FlipUnaudited user db₀ w.db) :
    FlipUnaudited user db₀ w'.db := by
  obtain ⟨⟨v, hv, hs⟩, hrecords⟩ := hl
  have hrun := gone_run (P := P) he i w
  rw [h] at hrun
  have hrevoked : ∃ v, w'.db.users.get user = some v ∧ v.status = .revoked := by
    have hgrows := grows_run (P.handle env) i w
    rw [h] at hgrows
    obtain ⟨v', hv', -, -, -, hk⟩ := (show Evolves w.db w'.db from hgrows).users.get hv
    exact ⟨v', hv', (hk hs).1⟩
  refine ⟨hrevoked, ?_⟩
  generalize hout : (o, w') = out at hrun
  cases hrun with
  | unread message fault => cases hout; exact hrecords
  | nobody linked => cases hout; exact hrecords
  | unflipped message fault => cases hout; exact hrecords
  | already other linked done => cases hout; exact hrecords
  | broken message other u w' read fault linked found users records =>
    cases hout
    exact hrecords.trans (records.mono (swept_unaudited user))
  | swept other u db now w' linked found users records sweeps after =>
    cases hout
    -- a principal this delivery revokes was not revoked before
    have hne : other ≠ user := by
      rintro rfl
      obtain ⟨hget, hns, -⟩ := Db.revocable_eq_some.mp found
      cases hget.symm.trans hv
      exact hns hs
    rw [after]
    exact hrecords.trans ((records.mono (swept_unaudited user)).trans
      (Db.appended_records (lifecycle_unaudited hne) now))

theorem gone_fails {e : Halt} (he : env.Ends sapiens)
    (h : (P.handle env).run portalMachine i w = (.error e, w')) :
    (P.FailsEarly env w.db i ∧ w'.db = w.db) ∨ (¬P.FailsEarly env w.db i ∧
      ∃ user, w.db.revocable user ≠ none ∧ FlipUnaudited user w.db w'.db) := by
  have hrun := gone_run (P := P) he i w
  rw [h] at hrun
  generalize hout : ((.error e, w') : Except Halt Unit × World) = out at hrun
  cases hrun with
  | unread message fault => cases hout; exact .inl ⟨.inl fault, rfl⟩
  | nobody linked => cases hout
  | unflipped message fault => cases hout; exact .inl ⟨.inr (.inl ⟨he.1, fault⟩), rfl⟩
  | already user linked done => cases hout
  | broken message user u w' read fault linked found users records =>
    cases hout
    refine .inr ⟨?_, user, found ▸ Option.some_ne_none u, ⟨_, users.flipped found, rfl⟩,
      records.mono (swept_unaudited user)⟩
    rintro (hf | ⟨-, hf⟩ | ⟨email, sapiens', hc, -⟩)
    · exact hf read.1
    · exact hf read.2
    · exact he.not_creates hc
  | swept user u db now w' linked found users records sweeps after => cases hout

theorem gone_diverges {db : Db} {user : Uuid} (he : env.Ends sapiens) (hrev : w.db.revocable user ≠ none)
    (hl : FlipUnaudited user w.db db) : ¬P.Converges env w db := by
  rintro ⟨j, v, -, hj, halike⟩
  obtain ⟨u, hu⟩ := Option.ne_none_iff_exists'.mp hrev
  obtain ⟨hget, hns, -⟩ := Db.revocable_eq_some.mp hu
  obtain ⟨x, hx, hxs⟩ := hl.revoked
  obtain ⟨y, hy, hys, -⟩ := halike.user hx
  have hyrev : y.status = .revoked := hys.trans hxs
  have unchanged : v.db.users.get user = w.db.users.get user → False := fun h => by
    cases (h.symm.trans hy).symm.trans hget
    exact hns hyrev
  have hrun := gone_run (P := P) he j w
  rw [hj] at hrun
  generalize hout : ((.ok (), v) : Except Halt Unit × World) = out at hrun
  cases hrun with
  | unread message fault => cases hout
  | nobody linked => cases hout; exact unchanged rfl
  | unflipped message fault => cases hout
  | already other linked done => cases hout; exact unchanged rfl
  | broken message other u w' read fault linked found users records => cases hout
  | swept other u' db' now w' linked found users records sweeps after =>
    cases hout
    by_cases hother : user = other
    · subst hother
      rw [after] at halike
      have hnone := halike.records hl.unaudited
        (records.mono (F := fun _ => True) (fun _ _ => trivial) |>.trans (Db.appended_records trivial now))
      have haudited := records.appended hnone
      rw [lifecycle_audited] at haudited
      cases haudited
    · apply unchanged
      rw [after]
      exact users.other hother

theorem gone_settled (he : env.Ends sapiens) (h : (P.handle env).run portalMachine i w = (.ok (), w')) :
    env.Settled P w.db w'.db := by
  refine ⟨fun sapiens' u he' hsole => ?_, fun _ _ _ hc => absurd hc he.not_creates⟩
  cases he.unique he'
  obtain ⟨hm, hns, honly⟩ := hsole
  obtain ⟨hl, hs⟩ := (honly u hm).mpr rfl
  have hfound : w.db.revocable u.id = some u := Db.revocable_eq_some.mpr ⟨Table.get_key hm, hns, hl⟩
  have hpicks : ∀ user, w.db.linked (i 0).scan sapiens = some user → user = u.id := by
    intro user hpick
    obtain ⟨v, hv, rfl, hvs, hvl⟩ := Db.linked_eq_some hpick
    rw [(honly v hv).mp ⟨hvl, hvs⟩]
  have hrun := gone_run (P := P) he i w
  rw [h] at hrun
  generalize hout : ((.ok (), w') : Except Halt Unit × World) = out at hrun
  cases hrun with
  | unread message fault => cases hout
  | nobody linked => exact absurd hs (Db.linked_eq_none linked u hm hl)
  | unflipped message fault => cases hout
  | already user linked done =>
    cases hpicks user linked
    cases hfound.symm.trans done
  | broken message user u w' read fault linked found users records => cases hout
  | swept user u' db now w' linked found users records sweeps after =>
    cases hout
    cases hpicks user linked
    cases hfound.symm.trans found
    rw [after]
    refine ⟨⟨_, users.flipped found, rfl⟩, sweeps, ?_⟩
    obtain ⟨rest, heq, hall⟩ := records
    have hrest : rest.filter (·.event.Revokes u.id) = [] :=
      List.filter_eq_nil_iff.mpr fun a ha => by
        rw [swept_unaudited u.id _ (hall a ha)]; exact Bool.false_ne_true
    generalize hevent : lifecycleEvent "lifecycle_access_revoked" env (some u.id) sapiens = event
    have haudited : event.Revokes u.id = true := hevent ▸ lifecycle_audited u.id
    refine ⟨rest ++ [⟨event, now⟩], ?_, ?_⟩
    · rw [← List.append_assoc, ← heq]
      rfl
    · simp only [List.filter_append, hrest, List.nil_append, List.filter_singleton, haudited, cond_true,
        List.length_singleton]

/-! ## Convergence -/

/-- **Convergence.** However often the bus retried an event, the accepted
delivery leaves what one failure-free delivery leaves exactly if every failure
came before the first write. -/
theorem redelivery_converges_iff {is : List (Nat → Env)} {w₁ : World}
    (he : (∃ email sapiens, env.Creates P email sapiens) ∨ ∃ sapiens, env.Ends sapiens)
    (hretried : P.Retried env w is w₁) (hok : (P.handle env).run portalMachine i w₁ = (.ok (), w')) :
    (P.Converges env w w'.db ∧ env.Settled P w.db w'.db) ↔ ∀ i ∈ is, P.FailsEarly env w.db i := by
  rcases he with ⟨email, sapiens, he⟩ | ⟨sapiens, he⟩
  · have hkeeps := hretried.keeps (E := P.FailsEarly env w.db)
      (L := fun db => w.db.unlinked email ≠ none ∧ LinkUnaudited email w.db db)
      (fun i w e w' h hdb => hdb ▸ created_fails he h) (fun i w o w' h hl => ⟨hl.1, created_keeps he h hl.2⟩)
      (.inl rfl)
    rcases hkeeps.2 rfl with ⟨hall, hdb⟩ | ⟨hnot, hun, hl⟩
    · exact ⟨fun _ => hall, fun _ => ⟨converges_of_unchanged hdb hok, hdb ▸ created_settled he hok⟩⟩
    · exact ⟨fun h => absurd h.1 (created_diverges he hun (created_keeps he hok hl)), fun h => absurd h hnot⟩
  · have hkeeps := hretried.keeps (E := P.FailsEarly env w.db)
      (L := fun db => ∃ user, w.db.revocable user ≠ none ∧ FlipUnaudited user w.db db)
      (fun i w e w' h hdb => hdb ▸ gone_fails he h)
      (fun i w o w' h hl => hl.imp fun user hl => ⟨hl.1, gone_keeps he h hl.2⟩) (.inl rfl)
    rcases hkeeps.2 rfl with ⟨hall, hdb⟩ | ⟨hnot, user, hrev, hl⟩
    · exact ⟨fun _ => hall, fun _ => ⟨converges_of_unchanged hdb hok, hdb ▸ gone_settled he hok⟩⟩
    · exact ⟨fun h => absurd h.1 (gone_diverges he hrev (gone_keeps he hok hl)), fun h => absurd h hnot⟩

end

namespace Probe

def linkedStore : Db :=
  { admitted with users := .single { user with sapiensUserId := some (uuid 9) } (by decide +kernel) }

def deletion : Envelope := lifecycle "sapiens.user.deleted"

def torn : Except Halt Unit × World :=
  (portal.handle deletion).run portalMachine (refusedAt 2 (uuid 4)) (world linkedStore)

def resumed : Except Halt Unit × World := (portal.handle deletion).run portalMachine (fun _ => env) torn.2

theorem deletion_ends : Envelope.Ends (uuid 9) deletion := ending_is

theorem torn_fails : (∃ e, torn.1 = .error e) ∧ torn.2.db.users.rows.map (·.status) = [.revoked] := by
  have h : torn.1.toOption = none ∧ torn.2.db.users.rows.map (·.status) = [.revoked] := by decide +kernel
  refine ⟨?_, h.2⟩
  cases ho : torn.1 with
  | error e => exact ⟨e, rfl⟩
  | ok u => cases (congrArg Except.toOption ho).symm.trans h.1

theorem resumed_ok : resumed.1 = .ok () := by decide +kernel

end Probe

/-- The redelivery is accepted, and the principal's bearer stays active with no
audit row of the revocation. -/
theorem unfinished_revocation_is_accepted :
    (∃ e, Probe.torn.1 = .error e) ∧ Probe.resumed.1 = .ok () ∧
    Probe.resumed.2.db.users.rows.map (·.status) = [.revoked] ∧
    Probe.resumed.2.db.tokens.rows.map (·.status) = [.active] ∧ Probe.resumed.2.db.trail.length = 0 ∧
    ¬(Probe.portal.Converges Probe.deletion (Probe.world Probe.linkedStore) Probe.resumed.2.db ∧
      Probe.deletion.Settled Probe.portal (Probe.world Probe.linkedStore).db Probe.resumed.2.db) := by
  have hrows : Probe.resumed.2.db.users.rows.map (·.status) = [.revoked] ∧
      Probe.resumed.2.db.tokens.rows.map (·.status) = [.active] ∧
        Probe.resumed.2.db.trail.length = 0 := by decide +kernel
  obtain ⟨⟨e, he⟩, hstatus⟩ := Probe.torn_fails
  refine ⟨⟨e, he⟩, Probe.resumed_ok, hrows.1, hrows.2.1, hrows.2.2, fun h => ?_⟩
  rcases gone_fails Probe.deletion_ends (Prod.ext he rfl) with ⟨-, hdb⟩ | ⟨-, user, hrev, hflip⟩
  · rw [show Probe.torn.2.db = _ from hdb] at hstatus
    cases hstatus
  · exact gone_diverges Probe.deletion_ends hrev
      (gone_keeps Probe.deletion_ends (Prod.ext Probe.resumed_ok rfl) hflip) h.1

theorem redelivery_converges_iff_probe :
    ¬(Probe.portal.Converges Probe.deletion (Probe.world Probe.linkedStore) Probe.resumed.2.db ∧
      Probe.deletion.Settled Probe.portal (Probe.world Probe.linkedStore).db Probe.resumed.2.db) := by
  obtain ⟨⟨e, he⟩, -⟩ := Probe.torn_fails
  have hretried : Probe.portal.Retried Probe.deletion (Probe.world Probe.linkedStore)
      [Probe.refusedAt 2 (Probe.uuid 4)] Probe.torn.2 := .again (Prod.ext he rfl) (.none _)
  have hok : (Probe.portal.handle Probe.deletion).run portalMachine (fun _ => Probe.env) Probe.torn.2 =
      (.ok (), Probe.resumed.2) := Prod.ext Probe.resumed_ok rfl
  intro h
  have hearly := (redelivery_converges_iff (.inr ⟨_, Probe.deletion_ends⟩) hretried hok).mp h
  rcases hearly _ (List.mem_singleton.mpr rfl) with h | ⟨-, h⟩ | ⟨_, _, h, -⟩
  · exact h rfl
  · exact h rfl
  · exact Probe.deletion_ends.not_creates h

/-! ## Handling an accepted event again -/

/-- Whatever a delivery from `w` accepted, an undisturbed second one accepts and
changes nothing. -/
def Portal.Replays (P : Portal) (env : Envelope) (w : World) : Prop :=
  ∀ i j w₁, (P.handle env).run portalMachine i w = (.ok (), w₁) → (∀ n, (j n).fault = none) →
    ∃ w₂, (P.handle env).run portalMachine j w₁ = (.ok (), w₂) ∧ w₂.db = w₁.db

/-- The event ends a sapiens user, of whose live principals an unrevoked one is
the only one. -/
def Envelope.Replayable (P : Portal) (env : Envelope) (db : Db) : Prop :=
  (∀ email sapiens, ¬env.Creates P email sapiens) ∧
    ∀ sapiens, env.Ends sapiens → ∀ u ∈ db.users.rows, ∀ v ∈ db.users.rows, u.live = true → v.live = true →
      u.sapiensUserId = some sapiens → v.sapiensUserId = some sapiens → u.status ≠ .revoked → v = u

section
variable {P : Portal} {env : Envelope} {email : String} {sapiens : Uuid} {w : World}

theorem created_never_replays (he : env.Creates P email sapiens) : ¬P.Replays env w := by
  intro h
  obtain ⟨w₁, h₁⟩ := created_succeeds (i := fun _ => {}) he w fun _ => rfl
  obtain ⟨w₂, h₂, hdb⟩ := h _ (fun _ => {}) w₁ h₁ fun _ => rfl
  obtain ⟨users, -, hw₂⟩ := created_accepted he h₂
  have hlen : w₂.db.trail.length = w₁.db.trail.length + 1 := by
    rw [hw₂]
    exact List.length_append
  rw [hdb] at hlen
  omega

theorem gone_moves_on (he : env.Ends sapiens) {u v : PortalUser} (hu : u ∈ w.db.users.rows)
    (hv : v ∈ w.db.users.rows)
    (hlu : u.live = true) (hlv : v.live = true) (hsu : u.sapiensUserId = some sapiens)
    (hsv : v.sapiensUserId = some sapiens) (hns : u.status ≠ .revoked) (hne : v ≠ u) : ¬P.Replays env w := by
  intro h
  obtain ⟨scan, hscan⟩ := Db.linked_any hv hlv hsv
  obtain ⟨w₁, h₁⟩ := gone_succeeds (P := P) (i := fun _ => { scan }) he w fun _ => rfl
  have hid : u.id ≠ v.id := fun h => hne (w.db.users.key_inj hv hu h.symm)
  -- the first delivery leaves the row alone
  have hstill : w₁.db.users.get u.id = some u := by
    have hrun := gone_run (P := P) he (fun _ => { scan }) w
    rw [h₁] at hrun
    generalize hout : ((.ok (), w₁) : Except Halt Unit × World) = out at hrun
    cases hrun with
    | unread message fault => cases hout
    | nobody linked => cases hout; exact Table.get_key hu
    | unflipped message fault => cases hout
    | already user linked done => cases hout; exact Table.get_key hu
    | broken message user x w' read fault linked found users records => cases hout
    | swept user x db now w' linked found users records sweeps after =>
      cases hout
      have huser : v.id = user := Option.some.inj (hscan.symm.trans linked)
      rw [after]
      show db.users.get u.id = some u
      rw [users.other (huser ▸ hid)]
      exact Table.get_key hu
  have hfound : w₁.db.revocable u.id = some u := Db.revocable_eq_some.mpr ⟨hstill, hns, hlu⟩
  obtain ⟨scan', hscan'⟩ := Db.linked_any (Table.get_eq_some.mp hstill).1 hlu hsu
  obtain ⟨w₂, h₂, hdb⟩ := h _ (fun _ => { scan := scan' }) w₁ h₁ fun _ => rfl
  have hreached : w₂.db.users.get u.id ≠ some u := by
    have hrun := gone_run (P := P) he (fun _ => { scan := scan' }) w₁
    rw [h₂] at hrun
    generalize hout : ((.ok (), w₂) : Except Halt Unit × World) = out at hrun
    cases hrun with
    | unread message fault => cases hout
    | nobody linked => cases hscan'.symm.trans linked
    | unflipped message fault => cases hout
    | already user linked done =>
      cases hscan'.symm.trans linked
      cases hfound.symm.trans done
    | broken message user x w' read fault linked found users records => cases hout
    | swept user x db now w' linked found users records sweeps after =>
      cases hout
      cases hscan'.symm.trans linked
      cases hfound.symm.trans found
      rw [after]
      intro hget
      have hrevoked := Option.some.inj ((users.flipped found).symm.trans hget)
      exact hns (congrArg PortalUser.status hrevoked).symm
  rw [hdb] at hreached
  exact hreached hstill

/-- **Replay.** A second handling changes nothing exactly for the gone events of
a sapiens user with at most one principal left to revoke, and no other. -/
theorem replays_iff (P : Portal) (env : Envelope) (w : World) : P.Replays env w ↔ env.Replayable P w.db := by
  constructor
  · intro h
    refine ⟨fun email sapiens he => created_never_replays he h, ?_⟩
    intro sapiens he u hu v hv hlu hlv hsu hsv hns
    by_contra hne
    exact gone_moves_on he hu hv hlu hlv hsu hsv hns hne h
  · rintro ⟨hcreated, hgone⟩ i j w₁ h₁ hj
    rcases handle_ok h₁ with ⟨email, sapiens, he⟩ | ⟨sapiens, he⟩
    · exact absurd he (hcreated email sapiens)
    · have hrevoked : w₁.db.LinkedRevoked sapiens := by
        refine (gone_reaches_iff he h₁).mpr fun u hu hl hs hns => ?_
        cases hpick : w.db.linked (i 0).scan sapiens with
        | none => exact absurd hs (Db.linked_eq_none hpick u hu hl)
        | some user =>
          obtain ⟨v, hv, rfl, hsv, hlv⟩ := Db.linked_eq_some hpick
          rw [hgone sapiens he u hu v hv hl hlv hs hsv hns]
      exact gone_idle he hrevoked hj

end

/-- The probes' creation handled twice: the link, then an invitation that is not there. -/
theorem replayed_creation_is_audited :
    (let first := (Probe.portal.handle (Probe.lifecycle userCreated)).run portalMachine (fun _ => Probe.env)
      (Probe.world Probe.enrolled)
    let second :=
      (Probe.portal.handle (Probe.lifecycle userCreated)).run portalMachine (fun _ => Probe.env) first.2
    first.1 = .ok () ∧ second.1 = .ok () ∧
      second.2.db.trail.map (·.event.action) = ["onboarding_linked", "onboarding_no_invitation"]) ∧
    ¬Probe.portal.Replays (Probe.lifecycle userCreated) (Probe.world Probe.enrolled) :=
  ⟨by decide +kernel, created_never_replays Probe.creation_is⟩

end BackbonePortal
