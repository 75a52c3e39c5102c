import BackbonePortal.Account
import BackbonePortal.Aligned
import BackbonePortal.Twins

/-!
# Customer isolation

What a customer's calls read and write: the own row, the own bearers and the
audit rows about it. Two stores that agree on these answer alike, and the same
of anybody else stays as it was.
-/

namespace BackbonePortal

open Proc Tables

def AuditTrail.isAbout (user : Uuid) (a : AuditTrail) : Bool :=
  a.event.subjectType = some "portal.portal_users" && a.event.subjectId = some user.display

/-- The same row, bearers and audit rows of the principal. -/
structure Db.AgreeOn (user : Uuid) (db db' : Db) : Prop where
  row : db.users.get user = db'.users.get user
  bearers : ∀ token, (db.tokens.get token).filter (·.userId = user) =
    (db'.tokens.get token).filter (·.userId = user)
  trail : db.trail.filter (·.isAbout user) = db'.trail.filter (·.isAbout user)

def Db.ownerOf (db : Db) (token : Uuid) : Option Uuid := (db.tokens.get token).map (·.userId)

theorem Db.AgreeOn.refl (user : Uuid) (db : Db) : db.AgreeOn user db := ⟨rfl, fun _ => rfl, rfl⟩

theorem Db.AgreeOn.trans {user : Uuid} {db db₁ db₂ : Db} (h : db.AgreeOn user db₁) (h' : db₁.AgreeOn user db₂) :
    db.AgreeOn user db₂ :=
  ⟨h.row.trans h'.row, fun token => (h.bearers token).trans (h'.bearers token), h.trail.trans h'.trail⟩

theorem Db.ownerOf_row {db : Db} {token : Uuid} {t : PortalToken} (h : db.tokens.get token = some t) :
    db.ownerOf token = some t.userId := by rw [Db.ownerOf, h, Option.map_some]

theorem Db.AgreeOn.get_bearer {user token : Uuid} {db db' : Db} (h : db.AgreeOn user db')
    (ho : ∀ id ∈ db.ownerOf token, id = user) (ho' : ∀ id ∈ db'.ownerOf token, id = user) :
    db.tokens.get token = db'.tokens.get token := by
  have own : ∀ {d : Db}, (∀ id ∈ d.ownerOf token, id = user) →
      (d.tokens.get token).filter (·.userId = user) = d.tokens.get token := by
    intro d hd
    cases ht : d.tokens.get token with
    | none => rfl
    | some t =>
      have := hd _ (Db.ownerOf_row ht)
      simp [this]
  rw [← own ho, ← own ho']
  exact h.bearers token

/-! ## The statements of a customer -/

/-- The action asks for the principal's own rows; `mine` are the bearers it can name. -/
def Act.Own (user : Uuid) (mine : Uuid → Prop) : Act → Prop
  | .now => True
  | .sql (.viewRow id) | .sql (.userStatus id) | .sql (.updateDetails id _) | .sql (.accessHistory id _) =>
    id = user
  | .sql (.bearerById token) | .sql (.touchLastUsed token) => mine token
  | _ => False

section
variable {user : Uuid} {db db' : Db}

theorem updateDetails_alike (h : db.AgreeOn user db') (sets : List (DetailColumn × String)) (i : Env) :
    ((Stmt.updateDetails user sets).answer i db).1 = ((Stmt.updateDetails user sets).answer i db').1 ∧
      ((Stmt.updateDetails user sets).answer i db).2.AgreeOn user
      ((Stmt.updateDetails user sets).answer i db').2 := by
  cases hf : i.fault with
  | some text =>
    rw [Stmt.answer_fault hf, Stmt.answer_fault hf]
    exact ⟨rfl, h⟩
  | none =>
    have hmatch : (db.users.rows.filter fun u => u.id = user && u.status = .active && u.live) =
        db'.users.rows.filter fun u => u.id = user && u.status = .active && u.live := by
      simp only [Bool.and_assoc]
      rw [db.users_with_id, db'.users_with_id, h.row]
    rcases Table.update_alike (f := (·.amend sets user.display i.now.stored)) (fun _ => rfl)
      (fun _ => rfl) hmatch with
      ⟨c, hc, hc'⟩ | ⟨rs, t, t', ht, ht'⟩
    · rw [Stmt.answer_of_error (e := .violates c) hf (by simp only [Stmt.exec, Db.updateUsers, Db.written, hc]),
        Stmt.answer_of_error (e := .violates c) hf (by simp only [Stmt.exec, Db.updateUsers, Db.written, hc'])]
      exact ⟨rfl, h⟩
    · have hexec : (Stmt.updateDetails user sets).exec i.now.stored i.scan db =
        .ok (rs.length, { db with users := t }) := by
        simp only [Stmt.exec, Db.updateUsers, Db.written, ht]
      have hexec' :
          (Stmt.updateDetails user sets).exec i.now.stored i.scan db' =
          .ok (rs.length, { db' with users := t' }) := by
        simp only [Stmt.exec, Db.updateUsers, Db.written, ht']
      rw [Stmt.answer_of_ok hf hexec, Stmt.answer_of_ok hf hexec']
      refine ⟨rfl, ?_, h.bearers, h.trail⟩
      show t.get user = t'.get user
      rw [Table.update_get ht, Table.update_get ht', h.row]

theorem read_alike {q : Stmt} (f : Env → Db → q.Res)
    (hq : ∀ (i : Env) db, q.exec i.now.stored i.scan db = .ok (f i db, db))
    (i : Env) (h : db.AgreeOn user db') (hf : f i db = f i db') :
    (q.answer i db).1 = (q.answer i db').1 ∧ (q.answer i db).2.AgreeOn user (q.answer i db').2 := by
  cases hfault : i.fault with
  | some text =>
    rw [Stmt.answer_fault hfault, Stmt.answer_fault hfault]
    exact ⟨rfl, h⟩
  | none =>
    rw [Stmt.answer_of_ok hfault (hq i db), Stmt.answer_of_ok hfault (hq i db')]
    exact ⟨congrArg Except.ok hf, h⟩

def usedRow (token : Uuid) (now : Instant) (t : PortalToken) : PortalToken :=
  if t.id = token then t.use now else t

@[simp] theorem usedRow_userId (token : Uuid) (now : Instant) (t : PortalToken) :
    (usedRow token now t).userId = t.userId := by
  unfold usedRow
  split <;> rfl

theorem filter_used (id token : Uuid) (now : Instant) (o : Option PortalToken) :
    (o.map (usedRow token now)).filter (·.userId = id) =
    (o.filter (·.userId = id)).map (usedRow token now) := by
  cases o with
  | none => rfl
  | some t =>
    by_cases ht : t.userId = id
    · simp [Option.filter_some, ht]
    · simp [Option.filter_some, ht]

theorem touchLastUsed_answer (db : Db) (token : Uuid) {i : Env} (hf : i.fault = none) :
    ∃ tokens, (Stmt.touchLastUsed token).answer i db =
      (.ok (db.tokens.get token).toList.length, { db with tokens }) ∧
      ∀ k, tokens.get k = (db.tokens.get k).map (usedRow token i.now.stored) := by
  have hkept : ∀ t ∈ db.tokens.rows, decide (t.id = token) = true →
    tokenSchema.broken (t.use i.now.stored) = none := by
    intro t ht _
    exact db.tokens.checked t ht
  have hmatch : (db.tokens.rows.filter fun t => t.id = token) = (db.tokens.get token).toList := by
    have hall : (db.tokens.get token).filter (fun _ => true) = db.tokens.get token := by
      cases db.tokens.get token <;> rfl
    rw [← hall, ← db.tokens_with_id]
    simp only [Bool.and_true]
  obtain ⟨tokens, ht, -⟩ : ∃ tokens,
      db.tokens.update (fun t => t.id = token) (·.use i.now.stored) (fun _ => rfl)
      (fun _ => rfl) =
      .ok ((db.tokens.rows.filter fun t => t.id = token).map (·.use i.now.stored), tokens) ∧ _ :=
    Table.update_ok db.tokens hkept
  refine ⟨tokens, Stmt.answer_of_ok hf ?_, fun k => ?_⟩
  · simp only [Stmt.exec, Db.updateTokens, Db.written, ht, List.length_map, hmatch]
  · rw [Table.update_get ht]
    simp only [decide_eq_true_eq]
    rfl

theorem touchLastUsed_alike (h : db.AgreeOn user db') {token : Uuid}
    (hrow : db.tokens.get token = db'.tokens.get token)
    (i : Env) :
    ((Stmt.touchLastUsed token).answer i db).1 = ((Stmt.touchLastUsed token).answer i db').1 ∧
      ((Stmt.touchLastUsed token).answer i db).2.AgreeOn user ((Stmt.touchLastUsed token).answer i db').2 := by
  cases hf : i.fault with
  | some text =>
    rw [Stmt.answer_fault hf, Stmt.answer_fault hf]
    exact ⟨rfl, h⟩
  | none =>
    obtain ⟨t, ht, hget⟩ := touchLastUsed_answer db token hf
    obtain ⟨t', ht', hget'⟩ := touchLastUsed_answer db' token hf
    rw [ht, ht', hrow]
    refine ⟨rfl, h.row, fun k => ?_, h.trail⟩
    show (t.get k).filter _ = (t'.get k).filter _
    rw [hget, hget', filter_used, filter_used, h.bearers]

end

/-! ## The reads -/

def AuditTrail.records (user : Uuid) (a : AuditTrail) : Bool :=
  a.event.subjectType = some "portal.portal_users" && a.event.subjectId = some user.display &&
    a.event.action ∈ ["login_succeeded", "login_refused", "bearer_minted", "bearer_rotated", "bearer_revoked"]

def historyOf (scan limit : Nat) (own : List AuditTrail) : List PortalAccessEvent :=
  (((reorder scan own).mergeSort fun a b => b.occurredAt ≤ a.occurredAt).take limit).map fun a =>
    ⟨a.event.action, a.occurredAt, a.event.actor⟩

/-- The row `verify_bearer` is told of. -/
def bearerJoin (db : Db) (token : Uuid) : Option BearerJoin := do
  let t ← (db.tokens.get token).filter (·.live)
  let u ← (db.users.get t.userId).filter (·.live)
  pure ⟨t.tokenNonce, t.tokenExpiresAt, t.status, u.id, u.email, u.details.displayName⟩

section
variable {user token : Uuid} {db db' : Db}

theorem Db.AgreeOn.records (h : db.AgreeOn user db') :
    db.trail.filter (·.records user) = db'.trail.filter (·.records user) := by
  have hsplit : ∀ trail : List AuditTrail, trail.filter (·.records user) =
      (trail.filter (·.isAbout user)).filter (·.records user) := by
    intro trail
    rw [List.filter_filter]
    apply List.filter_congr
    intro a _
    unfold AuditTrail.records AuditTrail.isAbout
    cases decide (a.event.subjectType = some "portal.portal_users") <;>
      cases decide (a.event.subjectId = some user.display) <;> simp
  rw [hsplit db.trail, hsplit db'.trail, h.trail]

theorem bearerJoin_alike (h : db.AgreeOn user db') (hrow : db.tokens.get token = db'.tokens.get token)
    (hown : ∀ id ∈ db.ownerOf token, id = user) : bearerJoin db token = bearerJoin db' token := by
  unfold bearerJoin
  rw [← hrow]
  cases ht : db.tokens.get token with
  | none => rfl
  | some t =>
    have hu : t.userId = user := hown _ (Db.ownerOf_row ht)
    cases hl : t.live with
    | true => simp only [Option.filter_some, hl, if_true, Option.bind_eq_bind, Option.bind_some, hu, h.row]
    | false =>
      simp only [Option.filter_some, hl, Bool.false_eq_true, if_false, Option.bind_eq_bind, Option.bind_none]

theorem bearerJoin_owner {row : BearerJoin} (hown : ∀ id ∈ db.ownerOf token, id = user)
    (h : bearerJoin db token = some row) :
    row.userId = user := by
  unfold bearerJoin at h
  simp only [Option.bind_eq_bind, Option.bind_eq_some_iff, Option.filter_eq_some_iff, Option.pure_def,
    Option.some.injEq] at h
  obtain ⟨t, ⟨ht, -⟩, u, ⟨hu, -⟩, rfl⟩ := h
  exact (Table.get_eq_some.mp hu).2.trans (hown _ (Db.ownerOf_row ht))

end

/-! ## Actions of a customer -/

section
variable {user other : Uuid} {mine : Uuid → Prop} {a : Act} {w w' : World}

/-- **Alike**: in two stores that agree on the principal, the action answers the
same and leaves two such stores. -/
theorem own_alike (ha : a.Own user mine) (hown : ∀ token, mine token → ∀ id ∈ w.db.ownerOf token, id = user)
    (hown' : ∀ token, mine token → ∀ id ∈ w'.db.ownerOf token, id = user)
    (h : w.db.AgreeOn user w'.db) (i : Env) :
    (a.exec i w).1 = (a.exec i w').1 ∧ (a.exec i w).2.db.AgreeOn user (a.exec i w').2.db := by
  cases a with
  | now => exact ⟨rfl, h⟩
  | sql q =>
    cases q with
    | viewRow id =>
      obtain rfl : id = user := ha
      exact read_alike (fun _ db => (db.users.get id).filter fun u => u.status = .active && u.live)
        (fun _ _ => rfl) i h
        (congrArg (Option.filter _) h.row)
    | userStatus id =>
      obtain rfl : id = user := ha
      exact read_alike (fun _ db => ((db.users.get id).filter (·.live)).map (·.status)) (fun _ _ => rfl) i h
        (congrArg (fun o => (Option.filter (·.live) o).map (·.status)) h.row)
    | updateDetails id sets =>
      obtain rfl : id = user := ha
      exact updateDetails_alike h sets i
    | accessHistory id limit =>
      obtain rfl : id = user := ha
      exact read_alike (fun i db => historyOf i.scan limit (db.trail.filter (·.records id)))
        (fun _ _ => rfl) i h
        (congrArg (historyOf i.scan limit) (h.records))
    | bearerById token =>
      have hrow := h.get_bearer (hown token ha) (hown' token ha)
      exact read_alike (fun _ db => bearerJoin db token) (fun _ _ => rfl) i h
        (bearerJoin_alike h hrow (hown token ha))
    | touchLastUsed token => exact touchLastUsed_alike h (h.get_bearer (hown token ha) (hown' token ha)) i
    | _ => exact ha.elim
  | _ => exact ha.elim

theorem own_owner (ha : a.Own user mine) (i : Env) : (a.exec i w).2.db.ownerOf = w.db.ownerOf := by
  cases a with
  | now => rfl
  | sql q =>
    show (q.answer i w.db).2.ownerOf = w.db.ownerOf
    cases hf : i.fault with
    | some text => rw [Stmt.answer_fault hf]
    | none =>
      cases q with
      | touchLastUsed token =>
        obtain ⟨tokens, ht, hget⟩ := touchLastUsed_answer w.db token hf
        rw [ht]
        funext k
        show (tokens.get k).map _ = (w.db.tokens.get k).map _
        rw [hget, Option.map_map]
        exact Option.map_congr fun t _ => usedRow_userId token i.now.stored t
      | updateDetails id sets =>
        cases hr : ((Stmt.updateDetails id sets).answer i w.db).1 with
        | error e => rw [Stmt.answer_error hr]
        | ok n =>
          obtain ⟨users, -, -, hdb⟩ := Db.updateUsers_ok (Stmt.answer_ok hr).2
          rw [hdb]
          rfl
      | viewRow id => rw [Stmt.answer_of_ok hf rfl]
      | userStatus id => rw [Stmt.answer_of_ok hf rfl]
      | accessHistory id limit => rw [Stmt.answer_of_ok hf rfl]
      | bearerById token => rw [Stmt.answer_of_ok hf rfl]
      | _ => exact ha.elim
  | _ => exact ha.elim

/-- **Apart**: of anybody else the action leaves everything as it was. -/
theorem own_apart (hne : other ≠ user) (ha : a.Own user mine)
    (hown : ∀ token, mine token → ∀ id ∈ w.db.ownerOf token, id = user) (i : Env) :
    w.db.AgreeOn other (a.exec i w).2.db := by
  cases a with
  | now => exact .refl other w.db
  | sql q =>
    show w.db.AgreeOn other (q.answer i w.db).2
    cases hf : i.fault with
    | some text =>
      rw [Stmt.answer_fault hf]
      exact .refl other w.db
    | none =>
      cases q with
      | touchLastUsed token =>
        obtain ⟨tokens, ht, hget⟩ := touchLastUsed_answer w.db token hf
        rw [ht]
        refine ⟨rfl, fun k => ?_, rfl⟩
        show (w.db.tokens.get k).filter _ = (tokens.get k).filter _
        rw [hget, filter_used]
        cases hrow : (w.db.tokens.get k).filter (·.userId = other) with
        | none => rfl
        | some t =>
          obtain ⟨hk, ho⟩ := Option.filter_eq_some_iff.mp hrow
          have hunused : t.id ≠ token := by
            rintro rfl
            have hid : w.db.tokens.get t.id = some t := Table.get_key (Table.get_eq_some.mp hk).1
            exact hne ((of_decide_eq_true ho).symm.trans (hown _ ha _ (Db.ownerOf_row hid)))
          rw [Option.map_some, usedRow, if_neg hunused]
      | updateDetails id sets =>
        obtain rfl : id = user := ha
        cases hr : ((Stmt.updateDetails id sets).answer i w.db).1 with
        | error e =>
          rw [Stmt.answer_error hr]
          exact .refl other w.db
        | ok n =>
          obtain ⟨users, hu, -, hdb⟩ := Db.updateUsers_ok (Stmt.answer_ok hr).2
          rw [hdb]
          refine ⟨?_, fun _ => rfl, rfl⟩
          show w.db.users.get other = users.get other
          rw [Table.update_get hu]
          cases hrow : w.db.users.get other with
          | none => rfl
          | some u =>
            have hid : u.id = other := (Table.get_eq_some.mp hrow).2
            rw [Option.map_some, if_neg]
            simp [hid, hne]
      | viewRow id => rw [Stmt.answer_of_ok hf rfl]; exact .refl other w.db
      | userStatus id => rw [Stmt.answer_of_ok hf rfl]; exact .refl other w.db
      | accessHistory id limit => rw [Stmt.answer_of_ok hf rfl]; exact .refl other w.db
      | bearerById token => rw [Stmt.answer_of_ok hf rfl]; exact .refl other w.db
      | _ => exact ha.elim
  | _ => exact ha.elim

end

/-! ## Calls of a customer -/

/-- `T` relates worlds the customer's actions cannot tell apart. -/
structure Unseen (user : Uuid) (mine : Uuid → Prop) (T : World → World → Prop) : Prop where
  owner : ∀ {w w'}, T w w' → ∀ token, mine token → ∀ id ∈ w.db.ownerOf token, id = user
  step : ∀ {a : Act}, a.Own user mine → ∀ i {w w'}, T w w' →
    (a.exec i w).1 = (a.exec i w').1 ∧ T (a.exec i w).2 (a.exec i w').2

section
variable {α β : Type} {user : Uuid} {mine : Uuid → Prop} {T : World → World → Prop} {P : Portal}
  {Q : Except Halt α → Prop}

theorem together_query (hT : Unseen user mine T) {q : Stmt} (hq : (Act.sql q).Own user mine)
    {f : q.Res → Verb α}
    (hok : ∀ i (w : World) r, (∀ token, mine token → ∀ id ∈ w.db.ownerOf token, id = user) →
      (q.answer i w.db).1 = .ok r →
      (f r).Together portalMachine T Q)
    (herr : ∀ e, Q (.error (.err (.db e)))) : ((query q).bind f).Together portalMachine T Q := by
  intro i w w' hw
  obtain ⟨hres, hnext⟩ := hT.step hq i hw
  refine ⟨hres, hnext, ?_⟩
  show (Prog.bind
    (match (q.answer i w.db).1 with | .ok r => .ret r | .error e => .fail (.err (.db e))) f).Together
    portalMachine T Q
  cases hr : (q.answer i w.db).1 with
  | error e => exact herr e
  | ok r => exact hok i w r (hT.owner hw) hr

theorem together_trySql (hT : Unseen user mine T) {q : Stmt} (hq : (Act.sql q).Own user mine)
    {f : Except SqlError q.Res → Verb α} (hf : ∀ r, (f r).Together portalMachine T Q) :
    ((trySql q).bind f).Together portalMachine T Q := by
  intro i w w' hw
  obtain ⟨hres, hnext⟩ := hT.step hq i hw
  exact ⟨hres, hnext, hf _⟩

theorem together_reply {p : Verb α} (hp : p.Together portalMachine T fun _ => True) (f : α → Reply) :
    (reply p f).Together portalMachine T fun _ => True :=
  hp.bind (fun _ _ => trivial) fun _ _ => trivial

theorem together_answered {p : Verb α} (hp : p.Together portalMachine T fun _ => True) (ok : α → Response)
    {err : PortalError → Verb Response} (herr : ∀ e, (err e).Together portalMachine T fun _ => True) :
    (answered p ok err).Together portalMachine T fun _ => True := by
  unfold answered
  refine hp.attempt.bind ?_ fun _ _ => trivial
  intro o _
  cases o with
  | ok a => trivial
  | error h =>
    cases h with
    | err e => exact herr e
    | _ => trivial

theorem view_together (hT : Unseen user mine T) : (view user).Together portalMachine T fun _ => True := by
  unfold view
  refine together_query hT (q := .viewRow user) rfl (fun _ _ r _ _ => ?_) fun _ => trivial
  cases r <;> trivial

theorem updateMyDetails_together (hT : Unseen user mine T) {principal : PortalPrincipal}
    (hp : principal.userId = user)
    (patch : PortalDetailPatch) : (updateMyDetails principal patch).Together portalMachine T fun _ => True := by
  unfold updateMyDetails
  subst hp
  by_cases hempty : patch.isEmpty = true
  · rw [if_pos hempty]
    trivial
  · rw [if_neg hempty]
    cases patch.validate with
    | error e => trivial
    | ok =>
      refine together_query hT (q := .updateDetails principal.userId patch.sets) rfl
        (fun _ _ n _ _ => ?_) fun _ => trivial
      by_cases hn : n ≠ 1
      · rw [if_pos hn]
        trivial
      · rw [if_neg hn]
        exact view_together hT

theorem myAccessHistory_together (hT : Unseen user mine T) {principal : PortalPrincipal}
    (hp : principal.userId = user)
    (limit : Int) : (myAccessHistory principal limit).Together portalMachine T fun _ => True := by
  unfold myAccessHistory
  rw [← Prog.bind_ret_right (query _)]
  exact together_query hT (q := .accessHistory _ _) hp (fun _ _ _ _ _ => trivial) fun _ => trivial

theorem surface_together (hT : Unseen user mine T) {principal : PortalPrincipal} (hp : principal.userId = user)
    (call : SurfaceCall) : (call.verb principal).Together portalMachine T fun _ => True := by
  cases call with
  | myDetails =>
    subst hp
    exact together_reply (view_together hT) _
  | updateMyDetails patch => exact together_reply (updateMyDetails_together hT hp patch) _
  | myAccessHistory limit => exact together_reply (myAccessHistory_together hT hp limit) _

def NamesCustomer (user : Uuid) (o : Except Halt PortalPrincipal) : Prop :=
  ∀ principal, o = .ok principal → principal.userId = user

theorem namesCustomer_error (h : Halt) : NamesCustomer user (.error h) := fun _ => nofun

theorem verifyBearer_together (hT : Unseen user mine T) (link : String)
    (hlink : ∀ parts, parseCapability link = some parts → mine parts.id) :
    (P.verifyBearer link).Together portalMachine T (NamesCustomer user) := by
  unfold Portal.verifyBearer
  cases P.secret with
  | error e => exact namesCustomer_error _
  | ok secret =>
    cases hparse : parseCapability link with
    | none => exact namesCustomer_error _
    | some parts =>
      refine together_query hT (q := .bearerById parts.id) (hlink parts hparse)
        (fun i w row hown hrow => ?_) fun _ => namesCustomer_error _
      cases row with
      | none => exact namesCustomer_error _
      | some row =>
        have huser : row.userId = user := bearerJoin_owner (hown _ (hlink parts hparse)) (by
          obtain ⟨hf, hexec⟩ := Stmt.answer_ok hrow
          exact (Prod.mk.inj (Except.ok.inj hexec)).1)
        dsimp only
        by_cases hagrees : P.bearerAgrees secret parts row = false
        · rw [if_pos hagrees]
          exact namesCustomer_error _
        · rw [if_neg hagrees]
          intro i w w' hw
          obtain ⟨hres, hnext⟩ := hT.step (a := .now) trivial i hw
          refine ⟨hres, hnext, ?_⟩
          show Prog.Together portalMachine T (NamesCustomer user) (if row.expiresAt < i.now then _ else _)
          by_cases hexpired : row.expiresAt < i.now
          · rw [if_pos hexpired]
            exact namesCustomer_error _
          rw [if_neg hexpired]
          by_cases hactive : row.status ≠ .active
          · rw [if_pos hactive]
            exact namesCustomer_error _
          rw [if_neg hactive]
          refine together_query hT (q := .userStatus row.userId) huser (fun _ _ status _ _ => ?_)
            fun _ => namesCustomer_error _
          cases status with
          | none => exact namesCustomer_error _
          | some status =>
            dsimp only
            by_cases hs : status ≠ .active
            · rw [if_pos hs]
              exact namesCustomer_error _
            · rw [if_neg hs]
              apply together_trySql hT (q := .touchLastUsed parts.id) (hlink parts hparse)
              intro _ principal hprincipal
              cases hprincipal
              exact huser

theorem authenticated_together (hT : Unseen user mine T) {authorization : Option String}
    (hmine : ∀ token ∈ ((presentedBearer authorization).bind parseCapability).map
      ParsedCapability.id, mine token)
    {handler : PortalPrincipal → Verb Response}
    (hhandler : ∀ principal, principal.userId = user →
      (handler principal).Together portalMachine T fun _ => True) :
    (P.authenticated authorization handler).Together portalMachine T fun _ => True := by
  unfold Portal.authenticated Portal.bearerPrincipal
  cases hpresented : presentedBearer authorization with
  | none => trivial
  | some link =>
    have hlink : ∀ parts, parseCapability link = some parts → mine parts.id := by
      intro parts hparts
      apply hmine
      rw [hpresented, Option.bind_some, hparts]
      rfl
    refine Prog.Together.bind
      (R := fun o => ∀ principal, o = .ok (.ok principal) → principal.userId = user) ?_ ?_
      fun _ _ => trivial
    · refine (verifyBearer_together hT link hlink).attempt.bind ?_ fun _ _ => nofun
      rintro o ⟨o', heq, hnames⟩
      cases heq
      cases o with
      | ok principal =>
        intro principal' heq
        cases heq
        exact hnames principal rfl
      | error h =>
        cases h with
        | err e => cases e <;> exact fun _ => nofun
        | _ => exact fun _ => nofun
    · intro o hnames
      cases o with
      | ok principal => exact hhandler principal (hnames principal rfl)
      | error r => trivial

theorem customer_together (hT : Unseen user mine T) (call : CustomerCall)
    (hp : ∀ id ∈ call.principal, id = user)
    (hmine : ∀ token ∈ call.credential, mine token) : (call.verb P).Together portalMachine T fun _ => True := by
  cases call with
  | surface principal call => exact surface_together hT (hp _ rfl) call
  | me authorization =>
    refine together_reply (authenticated_together hT hmine fun principal hprincipal => ?_) _
    subst hprincipal
    exact together_answered (view_together hT) _ fun _ => trivial
  | updateMe authorization body =>
    refine together_reply ?_ _
    cases body with
    | error rejection => trivial
    | ok body =>
      apply authenticated_together hT hmine
      intro principal hprincipal
      cases PortalDetailPatch.read body with
      | none => trivial
      | some patch => exact together_answered (updateMyDetails_together hT hprincipal patch) _ fun _ => trivial
  | accessHistory authorization =>
    refine together_reply (authenticated_together hT hmine fun principal hprincipal => ?_) _
    exact together_answered (myAccessHistory_together hT hprincipal 50) _ fun _ => trivial

theorem runAll_together (hT : Unseen user mine T) (calls : List (CustomerCall × (Nat → Env)))
    (hcalls : ∀ c ∈ calls, (∀ id ∈ c.1.principal, id = user) ∧ ∀ token ∈ c.1.credential, mine token)
    {w w' : World}
    (hw : T w w') :
    (CustomerCall.runAll P calls w).1 = (CustomerCall.runAll P calls w').1 ∧
      T (CustomerCall.runAll P calls w).2 (CustomerCall.runAll P calls w').2 := by
  induction calls generalizing w w' with
  | nil => exact ⟨rfl, hw⟩
  | cons c calls ih =>
    obtain ⟨hp, hmine⟩ := hcalls c List.mem_cons_self
    obtain ⟨hfirst, hnext⟩ := Prog.run_together (customer_together hT c.1 hp hmine) c.2 hw
    obtain ⟨hrest, hlast⟩ := ih (fun c' hc' => hcalls c' (List.mem_cons_of_mem c hc')) hnext
    exact ⟨by rw [CustomerCall.runAll, CustomerCall.runAll, hfirst, hrest], hlast⟩

end

/-! ## Isolation -/

theorem unseen_alike (user : Uuid) (o o' : Uuid → Option Uuid) :
    Unseen user (fun token => (∀ id ∈ o token, id = user) ∧ ∀ id ∈ o' token, id = user)
      fun w w' => w.db.AgreeOn user w'.db ∧ w.db.ownerOf = o ∧ w'.db.ownerOf = o' where
  owner := by
    intro w w' hw token hmine
    rw [hw.2.1]
    exact hmine.1
  step := by
    intro a ha i w w' hw
    obtain ⟨hagree, ho, ho'⟩ := hw
    have hown : ∀ token, ((∀ id ∈ o token, id = user) ∧ ∀ id ∈ o' token, id = user) →
        ∀ id ∈ w.db.ownerOf token, id = user := by
      intro token hmine
      rw [ho]
      exact hmine.1
    have hown' : ∀ token, ((∀ id ∈ o token, id = user) ∧ ∀ id ∈ o' token, id = user) →
        ∀ id ∈ w'.db.ownerOf token, id = user := by
      intro token hmine
      rw [ho']
      exact hmine.2
    obtain ⟨hres, hnext⟩ := own_alike ha hown hown' hagree i
    exact ⟨hres, hnext, (own_owner ha i).trans ho, (own_owner ha i).trans ho'⟩

theorem unseen_apart {user other : Uuid} (hne : other ≠ user) (db : Db) :
    Unseen user (fun token => ∀ id ∈ db.ownerOf token, id = user)
      fun w w' => w = w' ∧ db.AgreeOn other w.db ∧ w.db.ownerOf = db.ownerOf where
  owner := by
    intro w w' hw token hmine
    rw [hw.2.2]
    exact hmine
  step := by
    intro a ha i w w' hw
    obtain ⟨rfl, hagree, ho⟩ := hw
    have hown : ∀ token, (∀ id ∈ db.ownerOf token, id = user) → ∀ id ∈ w.db.ownerOf token, id = user := by
      intro token hmine
      rw [ho]
      exact hmine
    exact ⟨rfl, rfl, hagree.trans (own_apart hne ha hown i), (own_owner ha i).trans ho⟩

section
variable {P : Portal} {p q : Uuid}

theorem runAll_alike {calls : List (CustomerCall × (Nat → Env))} {w w' : World}
    (hcalls : ∀ c ∈ calls, c.1.MadeAs q w.db.ownerOf) (hcalls' : ∀ c ∈ calls, c.1.MadeAs q w'.db.ownerOf)
    (h : w.db.AgreeOn q w'.db) : (CustomerCall.runAll P calls w).1 = (CustomerCall.runAll P calls w').1 :=
  (runAll_together (unseen_alike q w.db.ownerOf w'.db.ownerOf) calls
    (fun c hc => ⟨(hcalls c hc).1, fun token ht => ⟨(hcalls c hc).2 token ht, (hcalls' c hc).2 token ht⟩⟩)
    ⟨h, rfl, rfl⟩).1

theorem runAll_apart (hpq : p ≠ q) {calls : List (CustomerCall × (Nat → Env))} {w : World}
    (hcalls : ∀ c ∈ calls, c.1.MadeAs q w.db.ownerOf) :
    w.db.AgreeOn p (CustomerCall.runAll P calls w).2.db ∧
      (CustomerCall.runAll P calls w).2.db.ownerOf = w.db.ownerOf :=
  (runAll_together (unseen_apart hpq w.db) calls hcalls ⟨rfl, .refl p w.db, rfl⟩).2.2

end

/-- **Customer isolation**: calls made as `q`, over the surface or with `q`'s
bearers, leave `p`'s row and whatever `p`'s own calls return, and what they
return depends on `q`'s row, bearers and audit rows alone. -/
theorem customer_isolation (P : Portal) {p q : Uuid} (hpq : p ≠ q) (calls : List (CustomerCall × (Nat → Env))) :
    (∀ w : World, (∀ c ∈ calls, c.1.MadeAs q w.db.ownerOf) →
      (CustomerCall.runAll P calls w).2.db.users.get p = w.db.users.get p ∧
      ∀ asks : List (CustomerCall × (Nat → Env)), (∀ c ∈ asks, c.1.MadeAs p w.db.ownerOf) →
        (CustomerCall.runAll P asks (CustomerCall.runAll P calls w).2).1 = (CustomerCall.runAll P asks w).1) ∧
    ∀ w w' : World, (∀ c ∈ calls, c.1.MadeAs q w.db.ownerOf) → (∀ c ∈ calls, c.1.MadeAs q w'.db.ownerOf) →
      w.db.AgreeOn q w'.db → (CustomerCall.runAll P calls w).1 = (CustomerCall.runAll P calls w').1 := by
  constructor
  · intro w hcalls
    obtain ⟨hagree, howner⟩ := runAll_apart (P := P) hpq hcalls
    refine ⟨hagree.row.symm, fun asks hasks => ?_⟩
    refine (runAll_alike hasks ?_ hagree).symm
    rw [howner]
    exact hasks
  · intro w w' hcalls hcalls' h
    exact runAll_alike hcalls hcalls' h

namespace Probe

def neighbour : PortalUser :=
  { id := uuid 4, email := "second@example.com", status := .active, metadata := .inserted now }

def shared : World := world { admitted with users := ⟨[user, neighbour], by decide, by decide, by decide⟩ }

def errands : List (CustomerCall × (Nat → Env)) :=
  [(.surface holder (.updateMyDetails move), fun _ => env),
    (.updateMe (some ("Bearer " ++ bearerLink))
      (.ok (.obj [("email", .str "second@example.com"), ("city", .str "Oslo")])),
      fun _ => env),
    (.accessHistory (some ("Bearer " ++ bearerLink)), fun _ => env)]

theorem shared_owner {tok id : Uuid} (h : id ∈ shared.db.ownerOf tok) : id = uuid 2 := by
  obtain ⟨t, ht, rfl⟩ := Option.map_eq_some_iff.mp h
  have hrow : t ∈ [Probe.token] := (Table.get_eq_some.mp ht).1
  rw [List.mem_singleton.mp hrow]
  rfl

theorem errands_made {c : CustomerCall × (Nat → Env)} (hc : c ∈ errands) :
    c.1.MadeAs (uuid 2) shared.db.ownerOf := by
  refine ⟨fun id hid => ?_, fun tok _ id hid => shared_owner hid⟩
  unfold errands at hc
  simp only [List.mem_cons, List.not_mem_nil, or_false] at hc
  rcases hc with rfl | rfl | rfl
  · exact (Option.some.inj hid).symm
  · cases hid
  · cases hid

end Probe

theorem customer_isolation_probe :
    (CustomerCall.runAll Probe.portal Probe.errands Probe.shared).2.db.users.get (Probe.uuid 4) =
    some Probe.neighbour ∧
    (CustomerCall.runAll Probe.portal Probe.errands Probe.shared).1 =
      (CustomerCall.runAll Probe.portal Probe.errands (Probe.world Probe.admitted)).1 := by
  obtain ⟨hapart, halike⟩ := customer_isolation Probe.portal (p := Probe.uuid 4) (q := Probe.uuid 2) (by decide)
    Probe.errands
  refine ⟨(hapart Probe.shared fun c hc => Probe.errands_made hc).1.trans (by decide), ?_⟩
  exact halike Probe.shared (Probe.world Probe.admitted) (fun c hc => Probe.errands_made hc)
    (fun c hc => Probe.errands_made hc) ⟨by decide, fun _ => rfl, rfl⟩

end BackbonePortal
