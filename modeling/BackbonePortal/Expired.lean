import BackbonePortal.Aligned
import BackbonePortal.Trail

/-!
# Swept and unswept stores

A store in which past invitations are marked expired beside one in which they
still read pending. The statements of the verbs move both alike.
-/

namespace BackbonePortal

open Proc Tables

/-! ## Statements that spare the invitations -/

def Db.over (db : Db) (invites : Table inviteSchema) (trail : List AuditTrail) : Db :=
  { db with invites, trail }

/-- The statement neither reads nor writes an invitation or the trail. -/
def Stmt.Aside : Stmt → Prop
  | .insertInvite .. | .inviteById _ | .redeemInvite .. | .revokeInvite .. | .revokePending ..
    | .sweepExpired => False
  | .appendAudit _ | .accessHistory .. => False
  | _ => True

theorem Stmt.Aside.spares {q : Stmt} (hq : q.Aside) : .invites ∉ q.writes := by
  cases q <;> first | exact hq.elim | simp [Stmt.writes]

section
variable {α : Type} (db : Db) (invites : Table inviteSchema) (trail : List AuditTrail)

def besides (x : α × Db) : α × Db := (x.1, x.2.over invites trail)

theorem updateUsers_over {p : PortalUser → Bool} {f : PortalUser → PortalUser}
    {hk : ∀ u, userSchema.key (f u) = userSchema.key u} {hi : ∀ u, userSchema.idx (f u) = userSchema.idx u}
    {answer : List PortalUser → α} :
    (db.over invites trail).updateUsers p f hk hi answer =
      (db.updateUsers p f hk hi answer).map (besides invites trail) := by
  simp only [Db.updateUsers, Db.written, Db.over]
  cases db.users.update p f hk hi <;> rfl

theorem updateTokens_over {p : PortalToken → Bool} {f : PortalToken → PortalToken}
    {hk : ∀ t, tokenSchema.key (f t) = tokenSchema.key t} {hi : ∀ t, tokenSchema.idx (f t) = tokenSchema.idx t}
    {answer : List PortalToken → α} :
    (db.over invites trail).updateTokens p f hk hi answer =
      (db.updateTokens p f hk hi answer).map (besides invites trail) := by
  simp only [Db.updateTokens, Db.written, Db.over]
  cases db.tokens.update p f hk hi <;> rfl

theorem insertToken_over (t : PortalToken) :
    (db.over invites trail).insertToken t = (db.insertToken t).map (·.over invites trail) := by
  simp only [Db.insertToken, Db.over]
  cases db.tokens.insert t with
  | error c => rfl
  | ok tokens =>
    show (if (db.users.get t.userId).isNone = true then _ else _) =
      Except.map _ (if (db.users.get t.userId).isNone = true then _ else _)
    split <;> rfl

/-- **Frame**: such a statement does the same over any invitations. -/
theorem exec_over {q : Stmt} (hq : q.Aside) (now : Instant) (scan : Nat) :
    q.exec now scan (db.over invites trail) = (q.exec now scan db).map (besides invites trail) := by
  cases q with
  | liveUserByEmail email => rfl
  | touchLastLogin id => exact updateUsers_over db invites trail
  | insertSignup id email =>
    simp only [Stmt.exec, Db.over]
    cases db.users.insert (.fresh id email now) with
    | ok users => rfl
    | error c =>
      dsimp only
      split <;> rfl
  | revokeUser id reason => exact updateUsers_over db invites trail
  | stampSapiens sapiens email => exact updateUsers_over db invites trail
  | principalByLink sapiens => rfl
  | userStatus id => rfl
  | viewRow id => rfl
  | updateDetails id sets => exact updateUsers_over db invites trail
  | insertToken id user nonce expires =>
    simp only [Stmt.exec, insertToken_over]
    cases db.insertToken (.fresh id user nonce expires now) <;> rfl
  | bearerById id => rfl
  | touchLastUsed id => exact updateTokens_over db invites trail
  | rotateToken id successor user nonce expires =>
    simp only [Stmt.exec, Db.over]
    cases db.tokens.update (fun t => t.id = id && t.status = .active) (·.rotate successor now)
      (fun _ => rfl) (fun _ => rfl) with
    | error c => rfl
    | ok x =>
      obtain ⟨rs, tokens⟩ := x
      dsimp only
      split
      · rfl
      · have hover := insertToken_over { db with tokens } invites trail (.fresh successor user nonce expires now)
        simp only [Db.over] at hover
        rw [hover]
        cases ({ db with tokens } : Db).insertToken (.fresh successor user nonce expires now) <;> rfl
  | revokeToken id reason => exact updateTokens_over db invites trail
  | revokeUserTokens user reason => exact updateTokens_over db invites trail
  | policyEnabled =>
    simp only [Stmt.exec, Db.over]
    cases (reorder scan (db.policies.rows.filter (·.live))).head? <;> rfl
  | replacePolicy id enabled note officer =>
    simp only [Stmt.exec]
    cases (Table.empty : Table policySchema).insert
      { id, enabled, note, updatedBy := officer, metadata := .inserted now } <;> rfl
  | _ => exact hq.elim

end

/-! ## The instant of a column -/

def storedEpoch : Int := seconds 946684800

theorem Instant.stored_eq (t : Instant) : t.stored = storedEpoch + Int.tdiv (t - storedEpoch) 1000 * 1000 := rfl

theorem Instant.stored_stored (t : Instant) : t.stored.stored = t.stored := by
  have hcancel : ∀ m : Int, storedEpoch + m * 1000 - storedEpoch = m * 1000 := by
    intro m
    omega
  rw [Instant.stored_eq t.stored, Instant.stored_eq t, hcancel,
    Int.mul_tdiv_cancel _ (by decide : (1000 : Int) ≠ 0)]

theorem lt_of_lt_truncated {base e t k : Int} (he : base + k * 1000 = e)
    (h : e < base + Int.tdiv (t - base) 1000 * 1000) : e < t := by
  have hmod := Int.mul_tdiv_add_tmod (t - base) 1000
  have hlt : -1000 < Int.tmod (t - base) 1000 := by
    rcases Int.le_total 0 (t - base) with hd | hd
    · have := Int.tmod_nonneg 1000 hd
      omega
    · have := Int.tmod_lt_of_pos (-(t - base)) (show (0 : Int) < 1000 by decide)
      rw [Int.neg_tmod] at this
      omega
  generalize Int.tdiv (t - base) 1000 = m at h hmod
  generalize Int.tmod (t - base) 1000 = r at hmod hlt
  omega

theorem Instant.lt_of_lt_stored {e t : Instant} (he : e.stored = e) (h : e < t.stored) : e < t :=
  lt_of_lt_truncated he h

/-! ## A swept store beside an unswept one -/

/-- A sweep before `t` marked `v`; `v'` was spared, and is pending or was revoked since. -/
structure PortalInvite.Marked (t : Instant) (v v' : PortalInvite) : Prop where
  id : v.id = v'.id
  recipientEmail : v.recipientEmail = v'.recipientEmail
  tokenNonce : v.tokenNonce = v'.tokenNonce
  tokenExpiresAt : v.tokenExpiresAt = v'.tokenExpiresAt
  live : v.live = v'.live
  expired : v.status = .expired
  spared : v'.status = .pending ∨ v'.status = .revoked
  past : v.tokenExpiresAt < t

def PortalInvite.Beside (t : Instant) (v v' : PortalInvite) : Prop := v = v' ∨ v.Marked t v'

/-- The first world was swept at times before `t`, the second was not. -/
structure SweptBeside (t : Instant) (w w' : World) : Prop where
  users : w.db.users = w'.db.users
  tokens : w.db.tokens = w'.db.tokens
  policies : w.db.policies = w'.db.policies
  book : w.book = w'.book
  invites : w.db.invites.Aligned (PortalInvite.Beside t) w'.db.invites
  stored : ∀ v ∈ w.db.invites.rows, v.tokenExpiresAt.stored = v.tokenExpiresAt

section
variable {t t' : Instant} {v v' : PortalInvite}

theorem PortalInvite.Beside.key (h : v.Beside t v') : inviteSchema.key v = inviteSchema.key v' := by
  rcases h with rfl | h
  · rfl
  · exact h.id

theorem PortalInvite.Beside.idx (h : v.Beside t v') : inviteSchema.idx v = inviteSchema.idx v' := by
  rcases h with rfl | h
  · rfl
  · exact congrArg some h.tokenNonce

theorem PortalInvite.Beside.mono (ht : t ≤ t') (h : v.Beside t v') : v.Beside t' v' := by
  rcases h with rfl | h
  · exact .inl rfl
  · exact .inr { h with past := Int.lt_of_lt_of_le h.past ht }

theorem SweptBeside.mono {w w' : World} (ht : t ≤ t') (h : SweptBeside t w w') : SweptBeside t' w w' :=
  { h with invites := h.invites.mono fun _ _ => PortalInvite.Beside.mono ht }

theorem SweptBeside.get {w w' : World} (h : SweptBeside t w w') (id : Uuid) :
    (w.db.invites.get id = none ∧ w'.db.invites.get id = none) ∨
      ∃ v v', w.db.invites.get id = some v ∧ w'.db.invites.get id = some v' ∧ v.Beside t v' :=
  h.invites.get (fun _ _ => PortalInvite.Beside.key) id

end

theorem stored_update {T U : Table inviteSchema} {p : PortalInvite → Bool} {f : PortalInvite → PortalInvite}
    {hk : ∀ v, inviteSchema.key (f v) = inviteSchema.key v}
    {hi : ∀ v, inviteSchema.idx (f v) = inviteSchema.idx v} {rs : List PortalInvite}
    (h : ∀ v ∈ T.rows, v.tokenExpiresAt.stored = v.tokenExpiresAt)
    (hU : T.update p f hk hi = .ok (rs, U)) (hf : ∀ v, (f v).tokenExpiresAt = v.tokenExpiresAt) :
    ∀ v ∈ U.rows, v.tokenExpiresAt.stored = v.tokenExpiresAt := by
  intro v hv
  rw [(Table.update_eq_ok hU).2] at hv
  obtain ⟨r, hr, rfl⟩ := List.mem_map.mp hv
  split
  · rw [hf]
    exact h r hr
  · exact h r hr

structure StaysBeside (t : Instant) (w w' u u' : World) : Prop where
  beside : SweptBeside t u u'
  same : ∀ id, w.db.invites.get id = w'.db.invites.get id → u.db.invites.get id = u'.db.invites.get id

/-- An action that asks for no invitation by id or state. -/
def Act.Joint : Act → Prop
  | .sql (.inviteById _) | .sql (.redeemInvite ..) | .sql (.revokeInvite ..) | .sql (.revokePending ..) => False
  | .sql .sweepExpired | .sql (.accessHistory ..) => False
  | _ => True

section
variable {t : Instant} {w w' : World}

theorem SweptBeside.outside (h : SweptBeside t w w') {u u' : World} {s : Instant} (ht : t ≤ s)
    (husers : u.db.users = u'.db.users) (htokens : u.db.tokens = u'.db.tokens)
    (hpolicies : u.db.policies = u'.db.policies)
    (hbook : u.book = u'.book) (hinv : u.db.invites = w.db.invites) (hinv' : u'.db.invites = w'.db.invites) :
    StaysBeside s w w' u u' where
  beside := by
    refine { users := husers, tokens := htokens, policies := hpolicies, book := hbook,
             invites := ?_, stored := ?_ }
    · rw [hinv, hinv']
      exact h.invites.mono fun _ _ => PortalInvite.Beside.mono ht
    · rw [hinv]
      exact h.stored
  same := by
    intro id heq
    rw [hinv, hinv']
    exact heq

theorem SweptBeside.stay (h : SweptBeside t w w') {s clock clock' : Instant} (ht : t ≤ s) :
    StaysBeside s w w' { w with clock } { w' with clock := clock' } :=
  h.outside ht h.users h.tokens h.policies h.book rfl rfl

theorem aside_step {q : Stmt} (hq : q.Aside) (h : SweptBeside t w w') {i : Env} (ht : t ≤ i.now) :
    ((Act.sql q).exec i w).1 = ((Act.sql q).exec i w').1 ∧
      StaysBeside i.now w w' ((Act.sql q).exec i w).2 ((Act.sql q).exec i w').2 := by
  have hdb : w.db = w'.db.over w.db.invites w.db.trail := by
    obtain ⟨husers, htokens, hpolicies, -, -, -⟩ := h
    unfold Db.over
    rw [← husers, ← htokens, ← hpolicies]
  cases hf : i.fault with
  | some text =>
    simp only [Act.exec, Stmt.answer_fault hf, true_and]
    exact h.stay ht
  | none =>
    cases hr : q.exec i.now.stored i.scan w'.db with
    | error e =>
      have hr' : q.exec i.now.stored i.scan w.db = .error e := by
        rw [hdb, exec_over _ _ _ hq, hr]
        rfl
      simp only [Act.exec, Stmt.answer_of_error hf hr, Stmt.answer_of_error hf hr', true_and]
      exact h.stay ht
    | ok x =>
      obtain ⟨r, db⟩ := x
      have hr' : q.exec i.now.stored i.scan w.db = .ok (r, db.over w.db.invites w.db.trail) := by
        rw [hdb, exec_over _ _ _ hq, hr]
        rfl
      have hspared : db.invites = w'.db.invites := (exec_framed q hr).invites hq.spares
      simp only [Act.exec, Stmt.answer_of_ok hf hr, Stmt.answer_of_ok hf hr', true_and]
      exact h.outside ht rfl rfl rfl h.book rfl hspared

theorem insertInvite_step {id : Uuid} {email nonce : String} {expires : Instant} {grantedBy : Option Uuid}
    (h : SweptBeside t w w') {i : Env} (ht : t ≤ i.now) :
    ((Act.sql (.insertInvite id email nonce expires grantedBy)).exec i w).1 =
        ((Act.sql (.insertInvite id email nonce expires grantedBy)).exec i w').1 ∧
      StaysBeside i.now w w' ((Act.sql (.insertInvite id email nonce expires grantedBy)).exec i w).2
        ((Act.sql (.insertInvite id email nonce expires grantedBy)).exec i w').2 := by
  cases hf : i.fault with
  | some text =>
    simp only [Act.exec, Stmt.answer_fault hf, true_and]
    exact h.stay ht
  | none =>
    rcases h.invites.insert (fun _ _ => PortalInvite.Beside.key) (fun _ _ => PortalInvite.Beside.idx)
      (r := .fresh id email nonce expires grantedBy i.now.stored) (.inl rfl)
      with ⟨c, hc, hc'⟩ | ⟨T, U, hT, hU, hTU⟩
    · have hr : ∀ db : Db, db.invites.insert (.fresh id email nonce expires grantedBy i.now.stored) = .error c →
          (Stmt.insertInvite id email nonce expires grantedBy).exec i.now.stored i.scan db =
          .error (.violates c) := by
        intro db hdb
        simp only [Stmt.exec, hdb]
      simp only [Act.exec, Stmt.answer_of_error hf (hr _ hc), Stmt.answer_of_error hf (hr _ hc'), true_and]
      exact h.stay ht
    · have hr : ∀ (db : Db) V,
          db.invites.insert (.fresh id email nonce expires grantedBy i.now.stored) = .ok V →
          (Stmt.insertInvite id email nonce expires grantedBy).exec i.now.stored i.scan db =
            .ok ((), { db with invites := V }) := by
        intro db V hdb
        simp only [Stmt.exec, hdb]
      simp only [Act.exec, Stmt.answer_of_ok hf (hr _ _ hT), Stmt.answer_of_ok hf (hr _ _ hU), true_and]
      refine ⟨{ h with invites := hTU.mono fun _ _ => PortalInvite.Beside.mono ht
                       stored := fun v hv => ?_ }, fun k hk => ?_⟩
      · rw [(Table.insert_eq_ok.mp hT).2] at hv
        rcases List.mem_append.mp hv with hv | hv
        · exact h.stored v hv
        · rw [List.mem_singleton.mp hv]
          exact expires.stored_stored
      · show T.get k = U.get k
        rw [Table.insert_get hT, Table.insert_get hU, hk]

/-- **A joint step**: the same answer in the swept world and in the unswept one. -/
theorem joint_step {a : Act} (ha : a.Joint) (h : SweptBeside t w w') {i : Env} (ht : t ≤ i.now) :
    (a.exec i w).1 = (a.exec i w').1 ∧ StaysBeside i.now w w' (a.exec i w).2 (a.exec i w').2 := by
  cases a with
  | sql q =>
    cases q with
    | insertInvite id email nonce expires grantedBy => exact insertInvite_step h ht
    | appendAudit event =>
      cases hf : i.fault with
      | some text =>
        simp only [Act.exec, Stmt.answer_fault hf, true_and]
        exact h.stay ht
      | none =>
        simp only [Act.exec, appendAudit_answer hf, true_and]
        exact h.outside ht h.users h.tokens h.policies h.book rfl rfl
    | inviteById _ => exact ha.elim
    | redeemInvite _ _ _ => exact ha.elim
    | revokeInvite _ _ => exact ha.elim
    | revokePending _ _ => exact ha.elim
    | sweepExpired => exact ha.elim
    | accessHistory _ _ => exact ha.elim
    | _ =>
      refine aside_step ?_ h ht
      exact trivial
  | now => exact ⟨rfl, h.stay ht⟩
  | newUuid => exact ⟨rfl, h.stay ht⟩
  | mintNonce => exact ⟨rfl, h.stay ht⟩
  | verify email presented => exact ⟨rfl, h.outside ht h.users h.tokens h.policies h.book rfl rfl⟩
  | check key now =>
    refine ⟨?_, h.stay ht⟩
    show w.book.check key now = w'.book.check key now
    rw [h.book]
  | registerFailure key now =>
    exact ⟨rfl, h.outside ht h.users h.tokens h.policies (congrArg (·.registerFailure key now) h.book) rfl rfl⟩
  | reset key => exact ⟨rfl, h.outside ht h.users h.tokens h.policies (congrArg (·.reset key) h.book) rfl rfl⟩

/-! ## Statements on the invitations -/

theorem PortalInvite.revoke_broken {v : PortalInvite} (reason : String) (now : Instant)
    (h : inviteSchema.broken v = none) :
    inviteSchema.broken (v.revoke reason now) = none ↔ withinLength 120 reason = true := by
  simp only [Schema.broken, inviteSchema, PortalInvite.revoke, Option.map_eq_none_iff,
    List.find?_eq_none, List.mem_cons,
    List.not_mem_nil, or_false, forall_eq_or_imp, forall_eq, optionally, Option.all_some] at h ⊢
  obtain ⟨h1, h2, -, h4, h5⟩ := h
  constructor
  · rintro ⟨-, -, h3, -, -⟩
    simpa using h3
  · intro hreason
    exact ⟨h1, h2, by simp [hreason], h4, h5⟩

theorem revokePending_long {email reason : String} (hlong : withinLength 120 reason ≠ true)
    (i : Env) (db : Db) :
    ((Stmt.revokePending email reason).answer i db).2 = db := by
  cases hr : ((Stmt.revokePending email reason).answer i db).1 with
  | error e => exact Stmt.answer_error hr
  | ok n =>
    obtain ⟨invites, hu, -, hdb⟩ := Db.updateInvites_ok (Stmt.answer_ok hr).2
    have hnone : ∀ v ∈ db.invites.rows, (v.recipientEmail = email && v.status = .pending : Bool) = false := by
      intro v hv
      by_contra hp
      have hmatch : v.revoke reason i.now.stored ∈ invites.rows := by
        rw [(Table.update_eq_ok hu).2]
        exact List.mem_map.mpr ⟨v, hv, if_pos (by simpa using hp)⟩
      have hbroken := (PortalInvite.revoke_broken reason i.now.stored (db.invites.checked v hv)).mp
        (invites.checked _ hmatch)
      exact hlong hbroken
    rw [hdb, (Table.update_nothing hnone hu).2]

theorem revokePending_step {email reason : String} (h : SweptBeside t w w') {i : Env} (ht : t ≤ i.now) :
    StaysBeside i.now w w' ((Act.sql (.revokePending email reason)).exec i w).2
      ((Act.sql (.revokePending email reason)).exec i w').2 := by
  cases hf : i.fault with
  | some text =>
    simp only [Act.exec, Stmt.answer_fault hf]
    exact h.stay ht
  | none =>
    by_cases hreason : withinLength 120 reason = true
    · have hrun : ∀ db : Db, ∃ rs T,
          db.invites.update (fun v => v.recipientEmail = email && v.status = .pending)
          (·.revoke reason i.now.stored) (fun _ => rfl) (fun _ => rfl) = .ok (rs, T) ∧
          (Stmt.revokePending email reason).answer i db = (.ok rs.length, { db with invites := T }) := by
        intro db
        obtain ⟨T, hT, -⟩ : ∃ T, db.invites.update (fun v => v.recipientEmail = email && v.status = .pending)
            (·.revoke reason i.now.stored) (fun _ => rfl) (fun _ => rfl) = .ok (_, T) ∧ _ :=
          Table.update_ok db.invites fun v hv _ =>
            (PortalInvite.revoke_broken reason i.now.stored (db.invites.checked v hv)).mpr hreason
        exact ⟨_, T, hT, Stmt.answer_of_ok hf (by simp only [Stmt.exec, Db.updateInvites, Db.written, hT])⟩
      obtain ⟨rs, T, hT, hans⟩ := hrun w.db
      obtain ⟨rs', U, hU, hans'⟩ := hrun w'.db
      simp only [Act.exec, hans, hans']
      have haligned : T.Aligned (PortalInvite.Beside i.now) U := by
        refine h.invites.update (fun v _ v' _ hvv => ?_) hT hU
        rcases hvv with rfl | hm
        · exact .inl rfl
        · -- the marked row is not pending; the spared one is revoked, now or before
          refine .inr ?_
          rw [if_neg (by simp [hm.expired])]
          split
          · exact { id := hm.id, recipientEmail := hm.recipientEmail, tokenNonce := hm.tokenNonce,
                    tokenExpiresAt := hm.tokenExpiresAt, live := hm.live, expired := hm.expired,
                    spared := .inr rfl, past := Int.lt_of_lt_of_le hm.past ht }
          · exact { hm with past := Int.lt_of_lt_of_le hm.past ht }
      refine ⟨{ users := h.users, tokens := h.tokens, policies := h.policies, book := h.book,
                invites := haligned, stored := stored_update h.stored hT fun _ => rfl }, fun id hid => ?_⟩
      show T.get id = U.get id
      rw [Table.update_get hT, Table.update_get hU, hid]
    · simp only [Act.exec, revokePending_long hreason]
      exact h.stay ht

theorem redeemInvite_step {id user : Uuid} {email : String} (h : SweptBeside t w w')
    (hsame : w.db.invites.get id = w'.db.invites.get id) {i : Env} (ht : t ≤ i.now) :
    ((Act.sql (.redeemInvite id user email)).exec i w).1 =
    ((Act.sql (.redeemInvite id user email)).exec i w').1 ∧
      StaysBeside i.now w w' ((Act.sql (.redeemInvite id user email)).exec i w).2
        ((Act.sql (.redeemInvite id user email)).exec i w').2 := by
  cases hf : i.fault with
  | some text =>
    simp only [Act.exec, Stmt.answer_fault hf, true_and]
    exact h.stay ht
  | none =>
    have hmatch : (w.db.invites.rows.filter fun v => v.id = id && v.status = .pending) =
        w'.db.invites.rows.filter fun v => v.id = id && v.status = .pending := by
      rw [w.db.invites_with_id, w'.db.invites_with_id, hsame]
    rcases Table.update_alike (f := (·.redeem user i.now.stored)) (fun _ => rfl) (fun _ => rfl) hmatch with
      ⟨c, hc, hc'⟩ | ⟨rs, T, U, hT, hU⟩
    · have hr : ∀ db : Db,
          db.invites.update (fun v => v.id = id && v.status = .pending) (·.redeem user i.now.stored)
          (fun _ => rfl) (fun _ => rfl) = .error c →
          (Stmt.redeemInvite id user email).exec i.now.stored i.scan db = .error (.violates c) := by
        intro db hdb
        simp only [Stmt.exec, hdb]
      simp only [Act.exec, Stmt.answer_of_error hf (hr _ hc), Stmt.answer_of_error hf (hr _ hc'), true_and]
      exact h.stay ht
    · by_cases hlen : rs.length = 1
      · cases hins : w.db.users.insert (.fresh user email i.now.stored) with
        | error c =>
          have hr : ∀ (db : Db) V, db.users = w.db.users →
              db.invites.update (fun v => v.id = id && v.status = .pending) (·.redeem user i.now.stored)
                (fun _ => rfl) (fun _ => rfl) = .ok (rs, V) →
              (Stmt.redeemInvite id user email).exec i.now.stored i.scan db = .error (.violates c) := by
            intro db V husers hdb
            simp [Stmt.exec, hdb, hlen, Db.insertUser, husers, hins]
          simp only [Act.exec, Stmt.answer_of_error hf (hr _ _ rfl hT),
            Stmt.answer_of_error hf (hr _ _ h.users.symm hU), true_and]
          exact h.stay ht
        | ok users =>
          have hr : ∀ (db : Db) V, db.users = w.db.users →
              db.invites.update (fun v => v.id = id && v.status = .pending) (·.redeem user i.now.stored)
                (fun _ => rfl) (fun _ => rfl) = .ok (rs, V) →
              (Stmt.redeemInvite id user email).exec i.now.stored i.scan db =
                .ok (true, { db with invites := V, users }) := by
            intro db V husers hdb
            simp [Stmt.exec, hdb, hlen, Db.insertUser, husers, hins]
          simp only [Act.exec, Stmt.answer_of_ok hf (hr _ _ rfl hT),
            Stmt.answer_of_ok hf (hr _ _ h.users.symm hU), true_and]
          have haligned : T.Aligned (PortalInvite.Beside i.now) U := by
            refine h.invites.update (fun v hv v' hv' hvv => ?_) hT hU
            rcases hvv with rfl | hm
            · exact .inl rfl
            · have hother : v'.id ≠ id := by
                intro hid
                have hget : w.db.invites.get id = some v := (hm.id.trans hid) ▸ Table.get_key hv
                have hget' : w'.db.invites.get id = some v' := hid ▸ Table.get_key hv'
                rw [hsame, hget'] at hget
                cases hget
                rcases hm.spared with hs | hs
                · exact PortalInviteStatus.noConfusion (hm.expired.symm.trans hs)
                · exact PortalInviteStatus.noConfusion (hm.expired.symm.trans hs)
              rw [if_neg (by simp [hm.expired]), if_neg (by simp [hother])]
              exact .inr { hm with past := Int.lt_of_lt_of_le hm.past ht }
          refine ⟨{ users := rfl, tokens := h.tokens, policies := h.policies, book := h.book,
                    invites := haligned, stored := stored_update h.stored hT fun _ => rfl }, fun k hk => ?_⟩
          show T.get k = U.get k
          rw [Table.update_get hT, Table.update_get hU, hk]
      · have hr : ∀ (db : Db) V, db.invites.update (fun v => v.id = id && v.status = .pending)
            (·.redeem user i.now.stored) (fun _ => rfl) (fun _ => rfl) = .ok (rs, V) →
            (Stmt.redeemInvite id user email).exec i.now.stored i.scan db = .ok (false, db) := by
          intro db V hdb
          simp only [Stmt.exec, hdb]
          exact if_pos hlen
        simp only [Act.exec, Stmt.answer_of_ok hf (hr _ _ hT), Stmt.answer_of_ok hf (hr _ _ hU), true_and]
        exact h.stay ht

theorem inviteById_answer {id : Uuid} {i : Env} (hf : i.fault = none) (db : Db) :
    (Stmt.inviteById id).answer i db =
    (.ok (((db.invites.get id).filter (·.live)).map PortalInvite.joined), db) :=
  Stmt.answer_of_ok hf rfl

theorem inviteById_step (id : Uuid) (h : SweptBeside t w w') {i : Env} (ht : t ≤ i.now) :
    StaysBeside i.now w w' ((Act.sql (.inviteById id)).exec i w).2 ((Act.sql (.inviteById id)).exec i w').2 ∧
      (((Act.sql (.inviteById id)).exec i w).1 = ((Act.sql (.inviteById id)).exec i w').1 ∧
        (∀ row, ((Act.sql (.inviteById id)).exec i w).1 = .ok (some row) →
          ∃ v, w.db.invites.get id = some v ∧ v.tokenExpiresAt = row.expiresAt) ∨
      ∃ row row', ((Act.sql (.inviteById id)).exec i w).1 = .ok (some row) ∧
        ((Act.sql (.inviteById id)).exec i w').1 = .ok (some row') ∧ row.status ≠ .pending ∧
        row'.expiresAt < i.now) := by
  cases hf : i.fault with
  | some text =>
    simp only [Act.exec, Stmt.answer_fault hf]
    exact ⟨h.stay ht, .inl ⟨trivial, fun row hrow => by cases hrow⟩⟩
  | none =>
    simp only [Act.exec, inviteById_answer hf]
    refine ⟨h.stay ht, ?_⟩
    rcases h.get id with ⟨hn, hn'⟩ | ⟨v, v', hv, hv', hvv⟩
    · rw [hn, hn']
      exact .inl ⟨rfl, fun row hrow => by cases hrow⟩
    · rw [hv, hv']
      rcases hvv with rfl | hm
      · refine .inl ⟨rfl, fun row hrow => ⟨v, rfl, ?_⟩⟩
        obtain ⟨r, hr, rfl⟩ := Option.map_eq_some_iff.mp (Except.ok.inj hrow)
        cases (Option.filter_eq_some_iff.mp hr).1
        rfl
      · cases hlive : v.live with
        | false =>
          have hlive' : v'.live = false := hm.live.symm.trans hlive
          simp [Option.filter_some, hlive, hlive']
        | true =>
          have hlive' : v'.live = true := hm.live.symm.trans hlive
          refine .inr ⟨v.joined, v'.joined, ?_, ?_, ?_, ?_⟩
          · simp [Option.filter_some, hlive]
          · simp [Option.filter_some, hlive']
          · exact fun hp => PortalInviteStatus.noConfusion (hm.expired.symm.trans hp)
          · show v'.tokenExpiresAt < i.now
            rw [← hm.tokenExpiresAt]
            exact Int.lt_of_lt_of_le hm.past ht

/-! ## The sweep -/

def PortalInvite.Overdue (now : Instant) (v : PortalInvite) : Prop :=
  v.status = .pending ∧ v.tokenExpiresAt < now.stored

theorem sweepExpired_answer {i : Env} (hf : i.fault = none) (db : Db) :
    ∃ rs T, db.invites.update (fun v => v.status = .pending && v.tokenExpiresAt < i.now.stored)
        (·.expire i.now.stored)
        (fun _ => rfl) (fun _ => rfl) = .ok (rs, T) ∧
      Stmt.sweepExpired.answer i db = (.ok rs.length, { db with invites := T }) := by
  obtain ⟨T, hT, -⟩ : ∃ T, db.invites.update (fun v => v.status = .pending && v.tokenExpiresAt < i.now.stored)
      (·.expire i.now.stored) (fun _ => rfl) (fun _ => rfl) = .ok (_, T) ∧ _ :=
    Table.update_ok db.invites fun v hv _ => db.invites.checked v hv
  exact ⟨_, T, hT, Stmt.answer_of_ok hf (by simp only [Stmt.exec, Db.updateInvites, Db.written, hT])⟩

/-- **A sweep** of the first world alone. -/
theorem sweep_step (h : SweptBeside t w w') {i : Env} (ht : t ≤ i.now) :
    SweptBeside i.now ((Act.sql .sweepExpired).exec i w).2 w' ∧
      ∀ id, (∀ v, w.db.invites.get id = some v → ¬v.Overdue i.now) →
        ((Act.sql .sweepExpired).exec i w).2.db.invites.get id = w.db.invites.get id := by
  cases hf : i.fault with
  | some text =>
    simp only [Act.exec, Stmt.answer_fault hf]
    obtain ⟨hbeside, -⟩ : StaysBeside i.now w w' { w with clock := i.now } w' :=
      h.outside ht h.users h.tokens h.policies h.book rfl rfl
    exact ⟨hbeside, fun _ _ => trivial⟩
  | none =>
    obtain ⟨n, T, hT, hans⟩ := sweepExpired_answer hf w.db
    simp only [Act.exec, hans]
    have haligned : T.Aligned (PortalInvite.Beside i.now) w'.db.invites := by
      refine h.invites.update_left (fun v hv v' _ hvv => ?_) hT
      split
      next hp =>
        simp only [Bool.and_eq_true, decide_eq_true_eq] at hp
        rcases hvv with rfl | hm
        · exact .inr { id := rfl, recipientEmail := rfl, tokenNonce := rfl, tokenExpiresAt := rfl, live := rfl,
                       expired := rfl, spared := .inl hp.1, past := Instant.lt_of_lt_stored (h.stored v hv) hp.2 }
        · exact absurd hp.1 (by simp [hm.expired])
      next => exact hvv.mono ht
    refine ⟨{ users := h.users, tokens := h.tokens, policies := h.policies, book := h.book,
              invites := haligned, stored := stored_update h.stored hT fun _ => rfl }, fun id hid => ?_⟩
    show T.get id = w.db.invites.get id
    rw [Table.update_get hT]
    cases hv : w.db.invites.get id with
    | none => rfl
    | some v =>
      have hspared := hid v hv
      rw [Option.map_some, if_neg]
      simpa [PortalInvite.Overdue] using hspared

end

end BackbonePortal
