import BackbonePortal.Actions

/-!
# What a statement does

Each kind of statement is inverted once; from the inversions, `Evolves` says
what no statement ever takes back: rows stay, their identity stays, a revoked
principal, a spent bearer and a settled invitation stay as they are, and the
trail only grows.
-/

namespace BackbonePortal

open Proc Tables

/-! ## Inversions -/

theorem Db.users_with_id (db : Db) (id : Uuid) (c : PortalUser → Bool) :
    (db.users.rows.filter fun u => u.id = id && c u) = ((db.users.get id).filter c).toList :=
  db.users.filter_key_and id c

theorem Db.tokens_with_id (db : Db) (id : Uuid) (c : PortalToken → Bool) :
    (db.tokens.rows.filter fun t => t.id = id && c t) = ((db.tokens.get id).filter c).toList :=
  db.tokens.filter_key_and id c

theorem Db.invites_with_id (db : Db) (id : Uuid) (c : PortalInvite → Bool) :
    (db.invites.rows.filter fun v => v.id = id && c v) = ((db.invites.get id).filter c).toList :=
  db.invites.filter_key_and id c

section
variable {α : Type} {db db' : Db} {a : α}

theorem Db.updateUsers_ok {p : PortalUser → Bool} {f : PortalUser → PortalUser}
    {hk : ∀ u, userSchema.key (f u) = userSchema.key u} {hi : ∀ u, userSchema.idx (f u) = userSchema.idx u}
    {answer : List PortalUser → α} (h : db.updateUsers p f hk hi answer = .ok (a, db')) :
    ∃ users, db.users.update p f hk hi = .ok ((db.users.rows.filter p).map f, users) ∧
      a = answer ((db.users.rows.filter p).map f) ∧ db' = { db with users } := by
  unfold Db.updateUsers Db.written at h
  split at h
  next rs users hu =>
    obtain ⟨rfl, -⟩ := Table.update_eq_ok hu
    cases h
    exact ⟨users, hu, rfl, rfl⟩
  next => cases h

theorem Db.updateTokens_ok {p : PortalToken → Bool} {f : PortalToken → PortalToken}
    {hk : ∀ t, tokenSchema.key (f t) = tokenSchema.key t} {hi : ∀ t, tokenSchema.idx (f t) = tokenSchema.idx t}
    {answer : List PortalToken → α} (h : db.updateTokens p f hk hi answer = .ok (a, db')) :
    ∃ tokens, db.tokens.update p f hk hi = .ok ((db.tokens.rows.filter p).map f, tokens) ∧
      a = answer ((db.tokens.rows.filter p).map f) ∧ db' = { db with tokens } := by
  unfold Db.updateTokens Db.written at h
  split at h
  next rs tokens hu =>
    obtain ⟨rfl, -⟩ := Table.update_eq_ok hu
    cases h
    exact ⟨tokens, hu, rfl, rfl⟩
  next => cases h

theorem Db.updateInvites_ok {p : PortalInvite → Bool} {f : PortalInvite → PortalInvite}
    {hk : ∀ v, inviteSchema.key (f v) = inviteSchema.key v}
    {hi : ∀ v, inviteSchema.idx (f v) = inviteSchema.idx v} {answer : List PortalInvite → α}
    (h : db.updateInvites p f hk hi answer = .ok (a, db')) :
    ∃ invites, db.invites.update p f hk hi = .ok ((db.invites.rows.filter p).map f, invites) ∧
      a = answer ((db.invites.rows.filter p).map f) ∧ db' = { db with invites } := by
  unfold Db.updateInvites Db.written at h
  split at h
  next rs invites hu =>
    obtain ⟨rfl, -⟩ := Table.update_eq_ok hu
    cases h
    exact ⟨invites, hu, rfl, rfl⟩
  next => cases h

theorem Db.insertUser_ok {u : PortalUser} (h : db.insertUser u = .ok db') :
    ∃ users, db.users.insert u = .ok users ∧ db' = { db with users } := by
  unfold Db.insertUser at h
  split at h
  · cases h
  next users hu => cases h; exact ⟨users, hu, rfl⟩

theorem Db.insertToken_ok {t : PortalToken} (h : db.insertToken t = .ok db') :
    ∃ tokens, db.tokens.insert t = .ok tokens ∧ (db.users.get t.userId).isSome ∧ db' = { db with tokens } := by
  unfold Db.insertToken at h
  split at h
  · cases h
  next tokens ht =>
    split at h
    · cases h
    next hu =>
      cases h
      exact ⟨tokens, ht, by simpa using Option.isSome_iff_ne_none.mpr (by simpa using hu), rfl⟩

end

section
variable {now : Instant} {scan : Nat} {db db' : Db}

theorem exec_insertSignup {id : Uuid} {email : String} {r : Option Uuid}
    (h : (Stmt.insertSignup id email).exec now scan db = .ok (r, db')) :
    (∃ users, db.users.insert (.fresh id email now) = .ok users ∧ r = some id ∧ db' = { db with users }) ∨
      (∃ c, db.users.insert (.fresh id email now) = .error c ∧ r = none ∧ db' = db) := by
  simp only [Stmt.exec] at h
  split at h
  next users hu => cases h; exact .inl ⟨users, hu, rfl, rfl⟩
  next c hu =>
    split at h
    · cases h; exact .inr ⟨c, hu, rfl, rfl⟩
    · cases h

theorem exec_insertToken {id user : Uuid} {nonce : String} {expires : Instant} {r : Unit}
    (h : (Stmt.insertToken id user nonce expires).exec now scan db = .ok (r, db')) :
    db.insertToken (.fresh id user nonce expires now) = .ok db' := by
  simp only [Stmt.exec] at h
  split at h
  next db₁ hi => cases h; exact hi
  · cases h

theorem exec_insertInvite {id : Uuid} {email nonce : String} {expires : Instant}
    {grantedBy : Option Uuid} {r : Unit}
    (h : (Stmt.insertInvite id email nonce expires grantedBy).exec now scan db = .ok (r, db')) :
    ∃ invites, db.invites.insert (.fresh id email nonce expires grantedBy now) = .ok invites ∧
      db' = { db with invites } := by
  simp only [Stmt.exec] at h
  split at h
  next invites hi => cases h; exact ⟨invites, hi, rfl⟩
  · cases h

theorem exec_rotateToken {id successor user : Uuid} {nonce : String} {expires : Instant} {r : Bool}
    (h : (Stmt.rotateToken id successor user nonce expires).exec now scan db = .ok (r, db')) :
    (r = false ∧ db' = db) ∨
      ∃ (spent : Table tokenSchema) (t : PortalToken), r = true ∧ t ∈ db.tokens.rows ∧ t.id = id ∧
        t.status = .active ∧
        db.tokens.update (fun t => t.id = id && t.status = .active) (·.rotate successor now) (fun _ => rfl)
          (fun _ => rfl) = .ok ([t.rotate successor now], spent) ∧
        { db with tokens := spent }.insertToken (.fresh successor user nonce expires now) = .ok db' := by
  simp only [Stmt.exec] at h
  split at h
  · cases h
  next rs spent hu =>
    obtain ⟨hrs, -⟩ := Table.update_eq_ok hu
    rw [db.tokens_with_id] at hrs
    split at h
    · cases h; exact .inl ⟨rfl, rfl⟩
    next hlen =>
      split at h
      next db₁ hi =>
        cases h
        cases hg : (db.tokens.get id).filter fun t => t.status = .active with
        | none => rw [hg] at hrs; subst hrs; exact absurd (by simp) hlen
        | some t =>
          obtain ⟨ht, hp⟩ := Option.filter_eq_some_iff.mp hg
          obtain ⟨hm, hid⟩ := Table.get_eq_some.mp ht
          rw [hg] at hrs
          subst hrs
          exact .inr ⟨spent, t, rfl, hm, hid, of_decide_eq_true hp, hu, hi⟩
      · cases h

theorem exec_redeemInvite {id user : Uuid} {email : String} {r : Bool}
    (h : (Stmt.redeemInvite id user email).exec now scan db = .ok (r, db')) :
    (r = false ∧ db' = db) ∨
      ∃ (settled : Table inviteSchema) (v : PortalInvite), r = true ∧ v ∈ db.invites.rows ∧ v.id = id ∧
        v.status = .pending ∧
        db.invites.update (fun v => v.id = id && v.status = .pending) (·.redeem user now) (fun _ => rfl)
          (fun _ => rfl) = .ok ([v.redeem user now], settled) ∧
        { db with invites := settled }.insertUser (.fresh user email now) = .ok db' := by
  simp only [Stmt.exec] at h
  split at h
  · cases h
  next rs settled hu =>
    obtain ⟨hrs, -⟩ := Table.update_eq_ok hu
    rw [db.invites_with_id] at hrs
    split at h
    · cases h; exact .inl ⟨rfl, rfl⟩
    next hlen =>
      split at h
      next db₁ hi =>
        cases h
        cases hg : (db.invites.get id).filter fun v => v.status = .pending with
        | none => rw [hg] at hrs; subst hrs; exact absurd (by simp) hlen
        | some v =>
          obtain ⟨hv, hp⟩ := Option.filter_eq_some_iff.mp hg
          obtain ⟨hm, hid⟩ := Table.get_eq_some.mp hv
          rw [hg] at hrs
          subst hrs
          exact .inr ⟨settled, v, rfl, hm, hid, of_decide_eq_true hp, hu, hi⟩
      · cases h

theorem exec_replacePolicy {id : Uuid} {enabled : Bool} {note : Option String}
    {officer : Option Uuid} {r : Unit}
    (h : (Stmt.replacePolicy id enabled note officer).exec now scan db = .ok (r, db')) :
    ∃ policies : Table policySchema,
      policies.rows = [{ id, enabled, note, updatedBy := officer, metadata := .inserted now }] ∧
      db' = { db with policies } := by
  simp only [Stmt.exec] at h
  split at h
  next policies hi => cases h; exact ⟨policies, (Table.insert_eq_ok.mp hi).2, rfl⟩
  · cases h

end

/-! ## Frames -/

inductive TableName where
  | users
  | tokens
  | invites
  | policies
  | trail
deriving DecidableEq, Repr

def Stmt.writes : Stmt → List TableName
  | .touchLastLogin _ | .insertSignup .. | .revokeUser .. | .stampSapiens .. | .updateDetails .. => [.users]
  | .insertToken .. | .touchLastUsed _ | .rotateToken .. | .revokeToken .. | .revokeUserTokens .. => [.tokens]
  | .insertInvite .. | .revokeInvite .. | .revokePending .. | .sweepExpired => [.invites]
  | .redeemInvite .. => [.users, .invites]
  | .replacePolicy .. => [.policies]
  | .appendAudit _ => [.trail]
  | _ => []

structure Framed (ts : List TableName) (db db' : Db) : Prop where
  users : .users ∉ ts → db'.users = db.users
  tokens : .tokens ∉ ts → db'.tokens = db.tokens
  invites : .invites ∉ ts → db'.invites = db.invites
  policies : .policies ∉ ts → db'.policies = db.policies
  trail : .trail ∉ ts → db'.trail = db.trail

theorem Framed.refl (ts : List TableName) (db : Db) : Framed ts db db :=
  ⟨fun _ => rfl, fun _ => rfl, fun _ => rfl, fun _ => rfl, fun _ => rfl⟩

section
variable (db : Db)

theorem framed_users (users : Table userSchema) : Framed [.users] db { db with users } :=
  ⟨fun h => absurd (.head _) h, fun _ => rfl, fun _ => rfl, fun _ => rfl, fun _ => rfl⟩

theorem framed_tokens (tokens : Table tokenSchema) : Framed [.tokens] db { db with tokens } :=
  ⟨fun _ => rfl, fun h => absurd (.head _) h, fun _ => rfl, fun _ => rfl, fun _ => rfl⟩

theorem framed_invites (invites : Table inviteSchema) : Framed [.invites] db { db with invites } :=
  ⟨fun _ => rfl, fun _ => rfl, fun h => absurd (.head _) h, fun _ => rfl, fun _ => rfl⟩

end

/-- **Frame.** A statement changes the tables it writes and no other. -/
theorem exec_framed (q : Stmt) {now : Instant} {scan : Nat} {db db' : Db} {r : q.Res}
    (h : q.exec now scan db = .ok (r, db')) : Framed q.writes db db' := by
  cases q with
  | liveUserByEmail email => cases h; exact .refl _ _
  | principalByLink sapiens => cases h; exact .refl _ _
  | userStatus id => cases h; exact .refl _ _
  | viewRow id => cases h; exact .refl _ _
  | bearerById id => cases h; exact .refl _ _
  | inviteById id => cases h; exact .refl _ _
  | accessHistory user limit => cases h; exact .refl _ _
  | policyEnabled =>
    simp only [Stmt.exec] at h
    split at h <;> cases h
    exact .refl _ _
  | touchLastLogin id => obtain ⟨users, -, -, rfl⟩ := Db.updateUsers_ok h; exact framed_users _ _
  | insertSignup id email =>
    rcases exec_insertSignup h with ⟨users, -, -, rfl⟩ | ⟨c, -, -, rfl⟩
    · exact framed_users _ _
    · exact .refl _ _
  | revokeUser id reason => obtain ⟨users, -, -, rfl⟩ := Db.updateUsers_ok h; exact framed_users _ _
  | stampSapiens sapiens email => obtain ⟨users, -, -, rfl⟩ := Db.updateUsers_ok h; exact framed_users _ _
  | updateDetails id sets => obtain ⟨users, -, -, rfl⟩ := Db.updateUsers_ok h; exact framed_users _ _
  | insertToken id user nonce expires =>
    obtain ⟨tokens, -, -, rfl⟩ := Db.insertToken_ok (exec_insertToken h)
    exact framed_tokens _ _
  | touchLastUsed id => obtain ⟨tokens, -, -, rfl⟩ := Db.updateTokens_ok h; exact framed_tokens _ _
  | rotateToken id successor user nonce expires =>
    rcases exec_rotateToken h with ⟨-, rfl⟩ | ⟨spent, t, -, -, -, -, -, hi⟩
    · exact .refl _ _
    · obtain ⟨tokens, -, -, rfl⟩ := Db.insertToken_ok hi
      exact framed_tokens _ _
  | revokeToken id reason => obtain ⟨tokens, -, -, rfl⟩ := Db.updateTokens_ok h; exact framed_tokens _ _
  | revokeUserTokens user reason => obtain ⟨tokens, -, -, rfl⟩ := Db.updateTokens_ok h; exact framed_tokens _ _
  | insertInvite id email nonce expires grantedBy =>
    obtain ⟨invites, -, rfl⟩ := exec_insertInvite h
    exact framed_invites _ _
  | redeemInvite id user email =>
    rcases exec_redeemInvite h with ⟨-, rfl⟩ | ⟨settled, v, -, -, -, -, -, hi⟩
    · exact .refl _ _
    · obtain ⟨users, -, rfl⟩ := Db.insertUser_ok hi
      exact ⟨fun h => absurd (.head _) h, fun _ => rfl, fun h => absurd (.tail _ (.head _)) h, fun _ => rfl,
        fun _ => rfl⟩
  | revokeInvite id reason => obtain ⟨invites, -, -, rfl⟩ := Db.updateInvites_ok h; exact framed_invites _ _
  | revokePending email reason => obtain ⟨invites, -, -, rfl⟩ := Db.updateInvites_ok h; exact framed_invites _ _
  | sweepExpired => obtain ⟨invites, -, -, rfl⟩ := Db.updateInvites_ok h; exact framed_invites _ _
  | replacePolicy id enabled note officer =>
    obtain ⟨policies, -, rfl⟩ := exec_replacePolicy h
    exact ⟨fun _ => rfl, fun _ => rfl, fun _ => rfl, fun h => absurd (.head _) h, fun _ => rfl⟩
  | appendAudit event =>
    cases h
    exact ⟨fun _ => rfl, fun _ => rfl, fun _ => rfl, fun _ => rfl, fun h => absurd (.head _) h⟩

/-! ## What no statement takes back -/

/-- Identity of a principal, its lifecycle link once set, and everything a
revocation froze. -/
def UserKeeps (u v : PortalUser) : Prop :=
  v.email = u.email ∧ v.live = u.live ∧ (∀ s, u.sapiensUserId = some s → v.sapiensUserId = some s) ∧
    (u.status = .revoked → v.status = .revoked ∧ v.revokedAt = u.revokedAt ∧
      v.revocationReason = u.revocationReason ∧ v.details = u.details)

/-- Identity of a bearer, and what happened to it when it was spent. -/
def TokenKeeps (t s : PortalToken) : Prop :=
  s.userId = t.userId ∧ s.tokenNonce = t.tokenNonce ∧ s.tokenExpiresAt = t.tokenExpiresAt ∧ s.live = t.live ∧
    (t.status ≠ .active → s.status = t.status ∧ s.rotatedTo = t.rotatedTo)

def InviteKeeps (v w : PortalInvite) : Prop :=
  w.recipientEmail = v.recipientEmail ∧ w.tokenNonce = v.tokenNonce ∧ w.tokenExpiresAt = v.tokenExpiresAt ∧
    w.live = v.live ∧ (v.status ≠ .pending → w.status = v.status ∧ w.redeemedBy = v.redeemedBy)

theorem UserKeeps.refl (u : PortalUser) : UserKeeps u u := ⟨rfl, rfl, fun _ h => h, fun h => ⟨h, rfl, rfl, rfl⟩⟩

theorem TokenKeeps.refl (t : PortalToken) : TokenKeeps t t := ⟨rfl, rfl, rfl, rfl, fun _ => ⟨rfl, rfl⟩⟩

theorem InviteKeeps.refl (v : PortalInvite) : InviteKeeps v v := ⟨rfl, rfl, rfl, rfl, fun _ => ⟨rfl, rfl⟩⟩

theorem UserKeeps.trans {u v x : PortalUser} (huv : UserKeeps u v) (hvx : UserKeeps v x) : UserKeeps u x := by
  obtain ⟨he, hl, hs, hr⟩ := huv
  obtain ⟨he', hl', hs', hr'⟩ := hvx
  refine ⟨he'.trans he, hl'.trans hl, fun s h => hs' s (hs s h), fun h => ?_⟩
  obtain ⟨h1, h2, h3, h4⟩ := hr h
  obtain ⟨k1, k2, k3, k4⟩ := hr' h1
  exact ⟨k1, k2.trans h2, k3.trans h3, k4.trans h4⟩

theorem TokenKeeps.trans {t s r : PortalToken} (hts : TokenKeeps t s) (hsr : TokenKeeps s r) :
    TokenKeeps t r := by
  obtain ⟨h1, h2, h3, h4, h5⟩ := hts
  obtain ⟨k1, k2, k3, k4, k5⟩ := hsr
  refine ⟨k1.trans h1, k2.trans h2, k3.trans h3, k4.trans h4, fun h => ?_⟩
  obtain ⟨hs, hr⟩ := h5 h
  obtain ⟨ks, kr⟩ := k5 (hs ▸ h)
  exact ⟨ks.trans hs, kr.trans hr⟩

theorem InviteKeeps.trans {v w x : PortalInvite} (hvw : InviteKeeps v w) (hwx : InviteKeeps w x) :
    InviteKeeps v x := by
  obtain ⟨h1, h2, h3, h4, h5⟩ := hvw
  obtain ⟨k1, k2, k3, k4, k5⟩ := hwx
  refine ⟨k1.trans h1, k2.trans h2, k3.trans h3, k4.trans h4, fun h => ?_⟩
  obtain ⟨hs, hr⟩ := h5 h
  obtain ⟨ks, kr⟩ := k5 (hs ▸ h)
  exact ⟨ks.trans hs, kr.trans hr⟩

/-- What the database becomes under any statements whatever. -/
structure Evolves (db db' : Db) : Prop where
  users : db.users.Follows UserKeeps db'.users
  tokens : db.tokens.Follows TokenKeeps db'.tokens
  invites : db.invites.Follows InviteKeeps db'.invites
  trail : db.trail <+: db'.trail

theorem Evolves.refl (db : Db) : Evolves db db :=
  ⟨.refl UserKeeps.refl _, .refl TokenKeeps.refl _, .refl InviteKeeps.refl _, List.prefix_rfl⟩

theorem Evolves.trans {db₁ db₂ db₃ : Db} (h : Evolves db₁ db₂) (h' : Evolves db₂ db₃) : Evolves db₁ db₃ :=
  ⟨h.users.trans h'.users fun _ _ _ => UserKeeps.trans, h.tokens.trans h'.tokens fun _ _ _ => TokenKeeps.trans,
    h.invites.trans h'.invites fun _ _ _ => InviteKeeps.trans, h.trail.trans h'.trail⟩

theorem Evolves.of_users {db db' : Db} (h : db.users.Follows UserKeeps db'.users) (ht : db'.tokens = db.tokens)
    (hi : db'.invites = db.invites) (ha : db'.trail = db.trail) : Evolves db db' :=
  ⟨h, ht ▸ .refl TokenKeeps.refl _, hi ▸ .refl InviteKeeps.refl _, ha ▸ List.prefix_rfl⟩

theorem Evolves.of_tokens {db db' : Db} (h : db.tokens.Follows TokenKeeps db'.tokens)
    (hu : db'.users = db.users)
    (hi : db'.invites = db.invites) (ha : db'.trail = db.trail) : Evolves db db' :=
  ⟨hu ▸ .refl UserKeeps.refl _, h, hi ▸ .refl InviteKeeps.refl _, ha ▸ List.prefix_rfl⟩

theorem Evolves.of_invites {db db' : Db} (h : db.invites.Follows InviteKeeps db'.invites)
    (hu : db'.users = db.users)
    (ht : db'.tokens = db.tokens) (ha : db'.trail = db.trail) : Evolves db db' :=
  ⟨hu ▸ .refl UserKeeps.refl _, ht ▸ .refl TokenKeeps.refl _, h, ha ▸ List.prefix_rfl⟩

section
variable {α : Type} {db db' : Db} {a : α}

theorem updateUsers_evolves {p : PortalUser → Bool} {f : PortalUser → PortalUser}
    {hk : ∀ u, userSchema.key (f u) = userSchema.key u} {hi : ∀ u, userSchema.idx (f u) = userSchema.idx u}
    {answer : List PortalUser → α} (h : db.updateUsers p f hk hi answer = .ok (a, db'))
    (hf : ∀ u, p u = true → UserKeeps u (f u)) : Evolves db db' := by
  obtain ⟨users, hu, -, rfl⟩ := Db.updateUsers_ok h
  exact .of_users (Table.update_follows UserKeeps.refl hf hu) rfl rfl rfl

theorem updateTokens_evolves {p : PortalToken → Bool} {f : PortalToken → PortalToken}
    {hk : ∀ t, tokenSchema.key (f t) = tokenSchema.key t} {hi : ∀ t, tokenSchema.idx (f t) = tokenSchema.idx t}
    {answer : List PortalToken → α} (h : db.updateTokens p f hk hi answer = .ok (a, db'))
    (hf : ∀ t, p t = true → TokenKeeps t (f t)) : Evolves db db' := by
  obtain ⟨tokens, hu, -, rfl⟩ := Db.updateTokens_ok h
  exact .of_tokens (Table.update_follows TokenKeeps.refl hf hu) rfl rfl rfl

theorem updateInvites_evolves {p : PortalInvite → Bool} {f : PortalInvite → PortalInvite}
    {hk : ∀ v, inviteSchema.key (f v) = inviteSchema.key v}
    {hi : ∀ v, inviteSchema.idx (f v) = inviteSchema.idx v} {answer : List PortalInvite → α}
    (h : db.updateInvites p f hk hi answer = .ok (a, db')) (hf : ∀ v, p v = true → InviteKeeps v (f v)) :
    Evolves db db' := by
  obtain ⟨invites, hu, -, rfl⟩ := Db.updateInvites_ok h
  exact .of_invites (Table.update_follows InviteKeeps.refl hf hu) rfl rfl rfl

theorem insertUser_evolves {u : PortalUser} (h : db.insertUser u = .ok db') : Evolves db db' := by
  obtain ⟨users, hu, rfl⟩ := Db.insertUser_ok h
  exact .of_users (Table.insert_follows UserKeeps.refl hu) rfl rfl rfl

theorem insertToken_evolves {t : PortalToken} (h : db.insertToken t = .ok db') : Evolves db db' := by
  obtain ⟨tokens, ht, -, rfl⟩ := Db.insertToken_ok h
  exact .of_tokens (Table.insert_follows TokenKeeps.refl ht) rfl rfl rfl

end

theorem revoke_active_token {t : PortalToken} (reason : String) (now : Instant) (h : t.status = .active) :
    TokenKeeps t (t.revoke reason now) := ⟨rfl, rfl, rfl, rfl, fun hn => absurd h hn⟩

theorem settle_pending_invite {v w : PortalInvite} (h : v.status = .pending)
    (he : w.recipientEmail = v.recipientEmail)
    (hn : w.tokenNonce = v.tokenNonce) (hx : w.tokenExpiresAt = v.tokenExpiresAt) (hl : w.live = v.live) :
    InviteKeeps v w := ⟨he, hn, hx, hl, fun hp => absurd h hp⟩

/-- **Monotonicity.** Every statement moves the database along `Evolves`. -/
theorem exec_evolves (q : Stmt) (now : Instant) (scan : Nat) (db : Db) (r : q.Res) (db' : Db)
    (h : q.exec now scan db = .ok (r, db')) : Evolves db db' := by
  cases q with
  | liveUserByEmail email => cases h; exact .refl _
  | principalByLink sapiens => cases h; exact .refl _
  | userStatus id => cases h; exact .refl _
  | viewRow id => cases h; exact .refl _
  | bearerById id => cases h; exact .refl _
  | inviteById id => cases h; exact .refl _
  | accessHistory user limit => cases h; exact .refl _
  | policyEnabled =>
    simp only [Stmt.exec] at h
    split at h <;> cases h
    exact .refl _
  | touchLastLogin id =>
    exact updateUsers_evolves h fun u _ => ⟨rfl, rfl, fun _ h => h, fun h => ⟨h, rfl, rfl, rfl⟩⟩
  | insertSignup id email =>
    rcases exec_insertSignup h with ⟨users, hu, -, rfl⟩ | ⟨c, -, -, rfl⟩
    · exact .of_users (Table.insert_follows UserKeeps.refl hu) rfl rfl rfl
    · exact .refl _
  | revokeUser id reason =>
    refine updateUsers_evolves h fun u hu => ⟨rfl, rfl, fun _ h => h, fun h => ?_⟩
    simp [h] at hu
  | stampSapiens sapiens email =>
    refine updateUsers_evolves h fun u hu => ⟨rfl, rfl, fun s h => ?_, fun h => ⟨h, rfl, rfl, rfl⟩⟩
    simp [h] at hu
  | updateDetails id sets =>
    refine updateUsers_evolves h fun u hu => ⟨rfl, rfl, fun _ h => h, fun h => ?_⟩
    simp [h] at hu
  | insertToken id user nonce expires => exact insertToken_evolves (exec_insertToken h)
  | touchLastUsed id =>
    exact updateTokens_evolves h fun t _ => ⟨rfl, rfl, rfl, rfl, fun _ => ⟨rfl, rfl⟩⟩
  | rotateToken id successor user nonce expires =>
    rcases exec_rotateToken h with ⟨-, rfl⟩ | ⟨spent, t, -, -, -, -, hu, hi⟩
    · exact .refl _
    · refine Evolves.trans ?_ (insertToken_evolves hi)
      refine .of_tokens (Table.update_follows TokenKeeps.refl (fun t ht => ?_) hu) rfl rfl rfl
      simp only [Bool.and_eq_true, decide_eq_true_eq] at ht
      exact ⟨rfl, rfl, rfl, rfl, fun hn => absurd ht.2 hn⟩
  | revokeToken id reason =>
    refine updateTokens_evolves h fun t ht => revoke_active_token reason now ?_
    simp only [Bool.and_eq_true, decide_eq_true_eq] at ht
    exact ht.2
  | revokeUserTokens user reason =>
    refine updateTokens_evolves h fun t ht => revoke_active_token reason now ?_
    simp only [Bool.and_eq_true, decide_eq_true_eq] at ht
    exact ht.2
  | insertInvite id email nonce expires grantedBy =>
    obtain ⟨invites, hi, rfl⟩ := exec_insertInvite h
    exact .of_invites (Table.insert_follows InviteKeeps.refl hi) rfl rfl rfl
  | redeemInvite id user email =>
    rcases exec_redeemInvite h with ⟨-, rfl⟩ | ⟨settled, v, -, -, -, -, hu, hi⟩
    · exact .refl _
    · refine Evolves.trans ?_ (insertUser_evolves hi)
      refine .of_invites (Table.update_follows InviteKeeps.refl (fun v hv => ?_) hu) rfl rfl rfl
      simp only [Bool.and_eq_true, decide_eq_true_eq] at hv
      exact settle_pending_invite hv.2 rfl rfl rfl rfl
  | revokeInvite id reason =>
    refine updateInvites_evolves h fun v hv => settle_pending_invite ?_ rfl rfl rfl rfl
    simp only [Bool.and_eq_true, decide_eq_true_eq] at hv
    exact hv.2
  | revokePending email reason =>
    refine updateInvites_evolves h fun v hv => settle_pending_invite ?_ rfl rfl rfl rfl
    simp only [Bool.and_eq_true, decide_eq_true_eq] at hv
    exact hv.2
  | sweepExpired =>
    refine updateInvites_evolves h fun v hv => settle_pending_invite ?_ rfl rfl rfl rfl
    simp only [Bool.and_eq_true, decide_eq_true_eq] at hv
    exact hv.1
  | replacePolicy id enabled note officer =>
    obtain ⟨policies, -, rfl⟩ := exec_replacePolicy h
    exact .of_users (.refl UserKeeps.refl _) rfl rfl rfl
  | appendAudit event =>
    cases h
    exact ⟨.refl UserKeeps.refl _, .refl TokenKeeps.refl _, .refl InviteKeeps.refl _, List.prefix_append _ _⟩

theorem act_evolves (a : Act) (i : Env) (w : World) : Evolves w.db (a.exec i w).2.db :=
  exec_db Evolves.refl exec_evolves a i w

end BackbonePortal
