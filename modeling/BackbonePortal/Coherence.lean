import BackbonePortal.Refinement

/-!
# Rows are coherent

The nullable columns of a row encode what happened to it, one thing or none: no
row is rotated without a successor, revoked without an instant and a reason, or
both. What happened lies between the insertion of the row and its last change,
and what one transaction wrote in two tables carries one instant.
-/

namespace BackbonePortal

open Proc Tables

/-! ## What a row says -/

/-- The row was inserted, then all of this happened, and its last change is past. -/
def Metadata.Spans (m : Metadata) (happened : List Instant) (clock : Instant) : Prop :=
  ∃ inserted changed, m.createdAt = some inserted ∧ m.updatedAt = some changed ∧ changed ≤ clock ∧
    inserted ≤ changed ∧ ∀ t ∈ happened, inserted ≤ t ∧ t ≤ changed

/-- A row whose columns are the code of a life. -/
def Encodes {L C : Type} (columns : C) (code : L → C) (times : L → List Instant) (m : Metadata)
    (used : Option Instant) (clock : Instant) : Prop :=
  ∃ life, columns = code life ∧ m.Spans (times life ++ used.toList) clock

inductive UserLife where
  | active
  | revoked (revokedAt : Instant) (reason : String)

def UserLife.code : UserLife → PortalUserStatus × Option Instant × Option String × Option Instant
  | .active => (.active, none, none, none)
  | .revoked revokedAt reason => (.revoked, some revokedAt, some reason, none)

def UserLife.times : UserLife → List Instant
  | .active => []
  | .revoked revokedAt _ => [revokedAt]

inductive TokenLife where
  | active
  | rotated (rotatedAt : Instant) (successor : Uuid)
  | revoked (revokedAt : Instant) (reason : String)

def TokenLife.code : TokenLife →
    PortalTokenStatus × Option Instant × Option Uuid × Option Instant × Option String
  | .active => (.active, none, none, none, none)
  | .rotated rotatedAt successor => (.rotated, some rotatedAt, some successor, none, none)
  | .revoked revokedAt reason => (.revoked, none, none, some revokedAt, some reason)

def TokenLife.times : TokenLife → List Instant
  | .active => []
  | .rotated rotatedAt _ => [rotatedAt]
  | .revoked revokedAt _ => [revokedAt]

inductive InviteLife where
  | pending
  | redeemed (redeemedAt : Instant) (redeemedBy : Uuid)
  | revoked (revokedAt : Instant) (reason : String)
  | expired

def InviteLife.code : InviteLife →
    PortalInviteStatus × Option Instant × Option Uuid × Option Instant × Option String
  | .pending => (.pending, none, none, none, none)
  | .redeemed redeemedAt redeemedBy => (.redeemed, some redeemedAt, some redeemedBy, none, none)
  | .revoked revokedAt reason => (.revoked, none, none, some revokedAt, some reason)
  | .expired => (.expired, none, none, none, none)

def InviteLife.times : InviteLife → List Instant
  | .redeemed redeemedAt _ => [redeemedAt]
  | .revoked revokedAt _ => [revokedAt]
  | _ => []

def PortalUser.Coherent (clock : Instant) (u : PortalUser) : Prop :=
  Encodes (u.status, u.revokedAt, u.revocationReason, u.archivedAt) UserLife.code UserLife.times u.metadata
    u.lastLoginAt clock

def PortalToken.Coherent (clock : Instant) (t : PortalToken) : Prop :=
  Encodes (t.status, t.rotatedAt, t.rotatedTo, t.revokedAt, t.revocationReason) TokenLife.code TokenLife.times
    t.metadata t.lastUsedAt clock

def PortalInvite.Coherent (clock : Instant) (v : PortalInvite) : Prop :=
  Encodes (v.status, v.redeemedAt, v.redeemedBy, v.revokedAt, v.revocationReason) InviteLife.code
    InviteLife.times v.metadata none clock

/-! ## What the tables say of one another -/

/-- A bearer belongs to a principal that was there before it. -/
def Db.Owns (db : Db) (t : PortalToken) : Prop :=
  ∃ u, db.users.get t.userId = some u ∧ ∃ first then_, u.metadata.createdAt = some first ∧
    t.metadata.createdAt = some then_ ∧ first ≤ then_

/-- The successor of a rotated bearer is a bearer of the same principal, inserted at the rotation. -/
def Db.Succeeds (db : Db) (t : PortalToken) : Prop :=
  ∀ successor, t.rotatedTo = some successor → ∃ s, db.tokens.get successor = some s ∧ s.userId = t.userId ∧
    s.metadata.createdAt = t.rotatedAt

/-- A redeemed invitation made the principal at its address, at the redemption. -/
def Db.Credits (db : Db) (v : PortalInvite) : Prop :=
  ∀ user, v.redeemedBy = some user → ∃ u, db.users.get user = some u ∧ u.email = v.recipientEmail ∧
    u.metadata.createdAt = v.redeemedAt

structure Db.Coherent (clock : Instant) (db : Db) : Prop where
  users : ∀ u ∈ db.users.rows, u.Coherent clock
  tokens : ∀ t ∈ db.tokens.rows, t.Coherent clock ∧ db.Owns t ∧ db.Succeeds t
  invites : ∀ v ∈ db.invites.rows, v.Coherent clock ∧ db.Credits v ∧
    (v.status = .expired → v.tokenExpiresAt < clock)

/-! ## Time -/

section
variable {m : Metadata} {happened : List Instant} {clock now : Instant}

theorem Metadata.Spans.later (h : m.Spans happened clock) (hnow : clock ≤ now) : m.Spans happened now := by
  obtain ⟨inserted, changed, hi, hc, hle, hrest⟩ := h
  exact ⟨inserted, changed, hi, hc, Int.le_trans hle hnow, hrest⟩

theorem Metadata.Spans.touched (h : m.Spans happened clock) (hnow : clock ≤ now) :
    (m.touched now).Spans happened now := by
  obtain ⟨inserted, changed, hi, hc, hle, hspan, hall⟩ := h
  have hnow : changed ≤ now := Int.le_trans hle hnow
  refine ⟨inserted, now, hi, rfl, Int.le_refl _, Int.le_trans hspan hnow, fun t ht => ?_⟩
  exact ⟨(hall t ht).1, Int.le_trans (hall t ht).2 hnow⟩

/-- What happens at the change itself. -/
theorem Metadata.Spans.happens (h : m.Spans happened clock) (hnow : clock ≤ now) {more : List Instant}
    (hmore : ∀ t ∈ more, t = now ∨ t ∈ happened) : (m.touched now).Spans more now := by
  obtain ⟨inserted, changed, hi, hc, hle, hspan, hall⟩ := h.touched hnow
  refine ⟨inserted, changed, hi, hc, hle, hspan, fun t ht => ?_⟩
  rcases hmore t ht with rfl | ht
  · cases hc
    exact ⟨hspan, Int.le_refl _⟩
  · exact hall t ht

theorem spans_inserted (now : Instant) : (Metadata.inserted now).Spans [] now :=
  ⟨now, now, rfl, rfl, Int.le_refl _, Int.le_refl _, List.forall_mem_nil _⟩

theorem stored_mono {t u : Instant} (h : t ≤ u) : t.stored ≤ u.stored := by
  have hdiv : ∀ epoch : Int, Int.tdiv (t - epoch) 1000 ≤ Int.tdiv (u - epoch) 1000 := fun epoch =>
    Int.tdiv_le_tdiv (by decide) (Int.sub_le_sub_right h _)
  exact Int.add_le_add_left (Int.mul_le_mul_of_nonneg_right (hdiv _) (by decide)) _

end

/-! ## How a row moves -/

section
variable (now : Instant) (db' : Db)

inductive UserMove : PortalUser → PortalUser → Prop where
  | stay (u : PortalUser) : UserMove u u
  | login (u : PortalUser) : UserMove u (u.login now)
  | link (u : PortalUser) (sapiens : Uuid) : UserMove u (u.link sapiens now)
  | amend (u : PortalUser) (sets : List (DetailColumn × String)) (by_ : String) : UserMove u (u.amend sets by_ now)
  | revoke (u : PortalUser) (reason : String) (unrevoked : u.status ≠ .revoked) : UserMove u (u.revoke reason now)

inductive TokenMove : PortalToken → PortalToken → Prop where
  | stay (t : PortalToken) : TokenMove t t
  | use (t : PortalToken) : TokenMove t (t.use now)
  | rotate (t : PortalToken) (successor : Uuid) (nonce : String) (expires : Instant) (active : t.status = .active)
    (row : db'.tokens.get successor = some (.fresh successor t.userId nonce expires now)) :
    TokenMove t (t.rotate successor now)
  | revoke (t : PortalToken) (reason : String) (active : t.status = .active) : TokenMove t (t.revoke reason now)

inductive InviteMove : PortalInvite → PortalInvite → Prop where
  | stay (v : PortalInvite) : InviteMove v v
  | redeem (v : PortalInvite) (user : Uuid) (pending : v.status = .pending)
    (row : db'.users.get user = some (.fresh user v.recipientEmail now)) : InviteMove v (v.redeem user now)
  | revoke (v : PortalInvite) (reason : String) (pending : v.status = .pending) : InviteMove v (v.revoke reason now)
  | expire (v : PortalInvite) (pending : v.status = .pending) (late : v.tokenExpiresAt < now) :
    InviteMove v (v.expire now)

variable {now db'}

theorem UserMove.keeps {u v : PortalUser} (h : UserMove now u v) :
    v.id = u.id ∧ v.metadata.createdAt = u.metadata.createdAt := by
  cases h <;> exact ⟨rfl, rfl⟩

theorem TokenMove.keeps {t s : PortalToken} (h : TokenMove now db' t s) :
    s.id = t.id ∧ s.userId = t.userId ∧ s.metadata.createdAt = t.metadata.createdAt := by
  cases h <;> exact ⟨rfl, rfl, rfl⟩

end

section
variable {q : Stmt} {now : Instant} {scan : Nat} {db db' : Db}

theorem user_moves {r : q.Res} (h : q.exec now scan db = .ok (r, db')) {v : PortalUser}
    (hv : v ∈ db'.users.rows) :
    (∃ u ∈ db.users.rows, UserMove now u v) ∨ ∃ id email, v = .fresh id email now ∧ db.users.get id = none := by
  have same : db'.users = db.users → (∃ u ∈ db.users.rows, UserMove now u v) ∨
      ∃ id email, v = .fresh id email now ∧ db.users.get id = none := fun he => .inl ⟨v, he ▸ hv, .stay v⟩
  have updated : ∀ {p : PortalUser → Bool} {f : PortalUser → PortalUser}
      {hk : ∀ u, userSchema.key (f u) = userSchema.key u} {hi : ∀ u, userSchema.idx (f u) = userSchema.idx u}
      {α : Type} {answer : List PortalUser → α} {a : α}, db.updateUsers p f hk hi answer = .ok (a, db') →
      (∀ u, p u = true → UserMove now u (f u)) → ∃ u ∈ db.users.rows, UserMove now u v := by
    intro p f hk hi α answer a h hf
    obtain ⟨users, hu, -, rfl⟩ := Db.updateUsers_ok h
    rcases mem_update hu hv with hm | ⟨u, hm, hp, rfl⟩
    · exact ⟨v, hm, .stay v⟩
    · exact ⟨u, hm, hf u hp⟩
  cases q with
  | touchLastLogin id => exact .inl (updated h fun u _ => .login u)
  | stampSapiens sapiens email => exact .inl (updated h fun u _ => .link u sapiens)
  | updateDetails id sets => exact .inl (updated h fun u _ => .amend u sets id.display)
  | revokeUser id reason =>
    refine .inl (updated h fun u hp => .revoke u reason ?_)
    simp only [Bool.and_eq_true, decide_eq_true_eq] at hp
    exact hp.1.2
  | insertSignup id email =>
    rcases exec_insertSignup h with ⟨users, hi, -, rfl⟩ | ⟨c, -, -, rfl⟩
    · rcases mem_insert hi hv with hm | rfl
      · exact .inl ⟨v, hm, .stay v⟩
      · exact .inr ⟨id, email, rfl, (Table.insert_get_self hi).1⟩
    · exact same rfl
  | redeemInvite invite id email =>
    rcases exec_redeemInvite h with ⟨-, rfl⟩ | ⟨settled, w, -, -, -, -, -, hi⟩
    · exact same rfl
    · obtain ⟨users, hin, rfl⟩ := Db.insertUser_ok hi
      rcases mem_insert hin hv with hm | rfl
      · exact .inl ⟨v, hm, .stay v⟩
      · exact .inr ⟨id, email, rfl, (Table.insert_get_self hin).1⟩
  | _ => exact same ((exec_framed _ h).users (by simp [Stmt.writes]))

theorem token_moves {w : World} {r : q.Res} (hown : OwnsRotated (.sql q) w)
    (h : q.exec now scan w.db = .ok (r, db')) {s : PortalToken} (hs : s ∈ db'.tokens.rows) :
    (∃ t ∈ w.db.tokens.rows, TokenMove now db' t s) ∨
      ∃ id user nonce expires, s = .fresh id user nonce expires now ∧ w.db.tokens.get id = none ∧
        (w.db.users.get user).isSome := by
  have same : db'.tokens = w.db.tokens → (∃ t ∈ w.db.tokens.rows, TokenMove now db' t s) ∨
      ∃ id user nonce expires, s = .fresh id user nonce expires now ∧ w.db.tokens.get id = none ∧
        (w.db.users.get user).isSome := fun he => .inl ⟨s, he ▸ hs, .stay s⟩
  have updated : ∀ {p : PortalToken → Bool} {f : PortalToken → PortalToken}
      {hk : ∀ t, tokenSchema.key (f t) = tokenSchema.key t} {hi : ∀ t, tokenSchema.idx (f t) = tokenSchema.idx t}
      {α : Type} {answer : List PortalToken → α} {a : α}, w.db.updateTokens p f hk hi answer = .ok (a, db') →
      (∀ t, p t = true → TokenMove now db' t (f t)) → ∃ t ∈ w.db.tokens.rows, TokenMove now db' t s := by
    intro p f hk hi α answer a h hf
    obtain ⟨tokens, hu, -, rfl⟩ := Db.updateTokens_ok h
    rcases mem_update hu hs with hm | ⟨t, hm, hp, rfl⟩
    · exact ⟨s, hm, .stay s⟩
    · exact ⟨t, hm, hf t hp⟩
  cases q with
  | touchLastUsed id => exact .inl (updated h fun t _ => .use t)
  | revokeToken id reason =>
    refine .inl (updated h fun t hp => .revoke t reason ?_)
    simp only [Bool.and_eq_true, decide_eq_true_eq] at hp
    exact hp.2
  | revokeUserTokens user reason =>
    refine .inl (updated h fun t hp => .revoke t reason ?_)
    simp only [Bool.and_eq_true, decide_eq_true_eq] at hp
    exact hp.2
  | insertToken id user nonce expires =>
    obtain ⟨tokens, hi, howner, rfl⟩ := Db.insertToken_ok (exec_insertToken h)
    rcases mem_insert hi hs with hm | rfl
    · exact .inl ⟨s, hm, .stay s⟩
    · exact .inr ⟨id, user, nonce, expires, rfl, (Table.insert_get_self hi).1, howner⟩
  | rotateToken id successor user nonce expires =>
    rcases exec_rotateToken h with ⟨-, rfl⟩ | ⟨spent, old, -, -, -, -, hu, hi⟩
    · exact same rfl
    · obtain ⟨tokens, hin, howner, rfl⟩ := Db.insertToken_ok hi
      have hfree : w.db.tokens.get successor = none := by
        have hspent := (Table.insert_get_self hin).1
        rw [Table.update_get hu] at hspent
        exact Option.map_eq_none_iff.mp hspent
      rcases mem_insert hin hs with hm | rfl
      · rcases mem_update hu hm with ht | ⟨t, ht, hp, rfl⟩
        · exact .inl ⟨s, ht, .stay s⟩
        · simp only [Bool.and_eq_true, decide_eq_true_eq] at hp
          obtain ⟨rfl, hactive⟩ := hp
          -- the verb binds the owner it read
          obtain ⟨t', ht', rfl⟩ := hown
          cases (Table.get_key ht).symm.trans ht'
          exact .inl ⟨t, ht, .rotate t successor nonce expires hactive (Table.insert_get_self hin).2⟩
      · exact .inr ⟨successor, user, nonce, expires, rfl, hfree, howner⟩
  | _ => exact same ((exec_framed _ h).tokens (by simp [Stmt.writes]))

theorem invite_moves {w : World} {r : q.Res} (hnames : NamesRecipient (.sql q) w)
    (h : q.exec now scan w.db = .ok (r, db')) {v : PortalInvite} (hv : v ∈ db'.invites.rows) :
    (∃ x ∈ w.db.invites.rows, InviteMove now db' x v) ∨
      ∃ id email nonce expires grantedBy, v = .fresh id email nonce expires grantedBy now := by
  have same : db'.invites = w.db.invites → (∃ x ∈ w.db.invites.rows, InviteMove now db' x v) ∨
      ∃ id email nonce expires grantedBy, v = .fresh id email nonce expires grantedBy now :=
    fun he => .inl ⟨v, he ▸ hv, .stay v⟩
  have updated : ∀ {p : PortalInvite → Bool} {f : PortalInvite → PortalInvite}
      {hk : ∀ v, inviteSchema.key (f v) = inviteSchema.key v}
      {hi : ∀ v, inviteSchema.idx (f v) = inviteSchema.idx v}
      {α : Type} {answer : List PortalInvite → α} {a : α}, w.db.updateInvites p f hk hi answer = .ok (a, db') →
      (∀ x, p x = true → InviteMove now db' x (f x)) → ∃ x ∈ w.db.invites.rows, InviteMove now db' x v := by
    intro p f hk hi α answer a h hf
    obtain ⟨invites, hu, -, rfl⟩ := Db.updateInvites_ok h
    rcases mem_update hu hv with hm | ⟨x, hm, hp, rfl⟩
    · exact ⟨v, hm, .stay v⟩
    · exact ⟨x, hm, hf x hp⟩
  cases q with
  | revokeInvite id reason =>
    refine .inl (updated h fun x hp => .revoke x reason ?_)
    simp only [Bool.and_eq_true, decide_eq_true_eq] at hp
    exact hp.2
  | revokePending email reason =>
    refine .inl (updated h fun x hp => .revoke x reason ?_)
    simp only [Bool.and_eq_true, decide_eq_true_eq] at hp
    exact hp.2
  | sweepExpired =>
    refine .inl (updated h fun x hp => ?_)
    simp only [Bool.and_eq_true, decide_eq_true_eq] at hp
    exact .expire x hp.1 hp.2
  | insertInvite id email nonce expires grantedBy =>
    obtain ⟨invites, hi, rfl⟩ := exec_insertInvite h
    rcases mem_insert hi hv with hm | rfl
    · exact .inl ⟨v, hm, .stay v⟩
    · exact .inr ⟨id, email, nonce, expires, grantedBy, rfl⟩
  | redeemInvite id user email =>
    rcases exec_redeemInvite h with ⟨-, rfl⟩ | ⟨settled, x, -, -, -, -, hu, hi⟩
    · exact same rfl
    · obtain ⟨users, hin, rfl⟩ := Db.insertUser_ok hi
      rcases mem_update hu hv with hm | ⟨x, hm, hp, rfl⟩
      · exact .inl ⟨v, hm, .stay v⟩
      · simp only [Bool.and_eq_true, decide_eq_true_eq] at hp
        obtain ⟨rfl, hpending⟩ := hp
        obtain ⟨x', hx', rfl⟩ := hnames
        cases (Table.get_key hm).symm.trans hx'
        exact .inl ⟨x, hm, .redeem x user hpending (Table.insert_get_self hin).2⟩
  | _ => exact same ((exec_framed _ h).invites (by simp [Stmt.writes]))

/-! ## What stays -/

theorem users_stay {r : q.Res} (h : q.exec now scan db = .ok (r, db')) {id : Uuid} {u : PortalUser}
    (hu : db.users.get id = some u) :
    ∃ v, db'.users.get id = some v ∧ v.email = u.email ∧ v.metadata.createdAt = u.metadata.createdAt := by
  obtain ⟨v, hv, hkeeps⟩ := (exec_evolves q now scan db r db' h).users.get hu
  obtain ⟨hm, hid⟩ := Table.get_eq_some.mp hv
  refine ⟨v, hv, hkeeps.1, ?_⟩
  rcases user_moves h hm with ⟨u', hu', hmove⟩ | ⟨id', email, rfl, hfree⟩
  · obtain ⟨hkey, hcreated⟩ := hmove.keeps
    have hget : db.users.get id = some u' := Table.get_eq_some.mpr ⟨hu', hkey.symm.trans hid⟩
    cases hu.symm.trans hget
    exact hcreated
  · obtain rfl : id' = id := hid
    cases hu.symm.trans hfree

theorem tokens_stay {w : World} {r : q.Res} (hown : OwnsRotated (.sql q) w)
    (h : q.exec now scan w.db = .ok (r, db')) {id : Uuid} {t : PortalToken} (ht : w.db.tokens.get id = some t) :
    ∃ s, db'.tokens.get id = some s ∧ s.userId = t.userId ∧ s.metadata.createdAt = t.metadata.createdAt := by
  obtain ⟨s, hs, hkeeps⟩ := (exec_evolves q now scan w.db r db' h).tokens.get ht
  obtain ⟨hm, hid⟩ := Table.get_eq_some.mp hs
  refine ⟨s, hs, hkeeps.1, ?_⟩
  rcases token_moves hown h hm with ⟨t', ht', hmove⟩ | ⟨id', user, nonce, expires, rfl, hfree, -⟩
  · obtain ⟨hkey, -, hcreated⟩ := hmove.keeps
    have hget : w.db.tokens.get id = some t' := Table.get_eq_some.mpr ⟨ht', hkey.symm.trans hid⟩
    cases ht.symm.trans hget
    exact hcreated
  · obtain rfl : id' = id := hid
    cases ht.symm.trans hfree

end

/-! ## Each move keeps the row coherent -/

section
variable {clock now : Instant} {db' : Db}

theorem UserMove.coherent {u v : PortalUser} (h : UserMove now u v) (hu : u.Coherent clock) (hnow : clock ≤ now) :
    v.Coherent now := by
  obtain ⟨life, hcode, hspans⟩ := hu
  cases h with
  | stay => exact ⟨life, hcode, hspans.later hnow⟩
  | login =>
    refine ⟨life, hcode, hspans.happens hnow fun t ht => ?_⟩
    rcases List.mem_append.mp ht with ht | ht
    · exact .inr (List.mem_append_left _ ht)
    · exact .inl (List.mem_singleton.mp ht)
  | link => exact ⟨life, hcode, hspans.touched hnow⟩
  | amend => exact ⟨life, hcode, hspans.touched hnow⟩
  | revoke reason unrevoked =>
    cases life with
    | revoked revokedAt why => exact absurd (congrArg Prod.fst hcode) unrevoked
    | active =>
      refine ⟨.revoked now reason, ?_, hspans.happens hnow fun t ht => ?_⟩
      · have harchived : u.archivedAt = none := congrArg (fun c => c.2.2.2) hcode
        simp only [PortalUser.revoke, UserLife.code, harchived]
      · exact List.mem_cons.mp ht

theorem TokenMove.coherent {t s : PortalToken} (h : TokenMove now db' t s) (ht : t.Coherent clock)
    (hnow : clock ≤ now) : s.Coherent now := by
  obtain ⟨life, hcode, hspans⟩ := ht
  have untouched : t.status = .active → life = .active := by
    intro hactive
    cases life with
    | active => rfl
    | rotated => cases hactive.symm.trans (congrArg Prod.fst hcode)
    | revoked => cases hactive.symm.trans (congrArg Prod.fst hcode)
  cases h with
  | stay => exact ⟨life, hcode, hspans.later hnow⟩
  | use =>
    refine ⟨life, hcode, hspans.happens hnow fun t ht => ?_⟩
    rcases List.mem_append.mp ht with ht | ht
    · exact .inr (List.mem_append_left _ ht)
    · exact .inl (List.mem_singleton.mp ht)
  | rotate successor nonce expires active =>
    obtain rfl := untouched active
    simp only [TokenLife.code, Prod.mk.injEq] at hcode
    refine ⟨.rotated now successor, ?_, hspans.happens hnow fun t ht => List.mem_cons.mp ht⟩
    simp only [PortalToken.rotate, TokenLife.code, hcode]
  | revoke reason active =>
    obtain rfl := untouched active
    simp only [TokenLife.code, Prod.mk.injEq] at hcode
    refine ⟨.revoked now reason, ?_, hspans.happens hnow fun t ht => List.mem_cons.mp ht⟩
    simp only [PortalToken.revoke, TokenLife.code, hcode]

theorem InviteMove.coherent {v x : PortalInvite} (h : InviteMove now db' v x) (hv : v.Coherent clock)
    (hnow : clock ≤ now) : x.Coherent now := by
  obtain ⟨life, hcode, hspans⟩ := hv
  have untouched : v.status = .pending → life = .pending := by
    intro hpending
    cases life with
    | pending => rfl
    | _ => cases hpending.symm.trans (congrArg Prod.fst hcode)
  cases h with
  | stay => exact ⟨life, hcode, hspans.later hnow⟩
  | redeem user pending row =>
    obtain rfl := untouched pending
    simp only [InviteLife.code, Prod.mk.injEq] at hcode
    refine ⟨.redeemed now user, ?_, hspans.happens hnow fun t ht => List.mem_cons.mp ht⟩
    simp only [PortalInvite.redeem, InviteLife.code, hcode]
  | revoke reason pending =>
    obtain rfl := untouched pending
    simp only [InviteLife.code, Prod.mk.injEq] at hcode
    refine ⟨.revoked now reason, ?_, hspans.happens hnow fun t ht => List.mem_cons.mp ht⟩
    simp only [PortalInvite.revoke, InviteLife.code, hcode]
  | expire pending late =>
    obtain rfl := untouched pending
    simp only [InviteLife.code, Prod.mk.injEq] at hcode
    refine ⟨.expired, ?_, hspans.touched hnow⟩
    simp only [PortalInvite.expire, InviteLife.code, hcode]

end

/-! ## A statement keeps the tables coherent -/

section
variable {q : Stmt} {clock now : Instant} {scan : Nat} {w : World} {db' : Db} {r : q.Res}

theorem TokenMove.succeeds (hown : OwnsRotated (.sql q) w) (h : q.exec now scan w.db = .ok (r, db'))
    {t s : PortalToken} (hmove : TokenMove now db' t s) (ht : w.db.Succeeds t) : db'.Succeeds s := by
  have carried : s.rotatedTo = t.rotatedTo → s.rotatedAt = t.rotatedAt → s.userId = t.userId → db'.Succeeds s := by
    intro hto hat huser successor hs
    obtain ⟨x, hx, hxuser, hxat⟩ := ht successor (hto.symm.trans hs)
    obtain ⟨y, hy, hyuser, hyat⟩ := tokens_stay hown h hx
    exact ⟨y, hy, hyuser.trans (hxuser.trans huser.symm), hyat.trans (hxat.trans hat.symm)⟩
  cases hmove with
  | rotate successor nonce expires active row =>
    intro successor' hs
    cases hs
    exact ⟨_, row, rfl, rfl⟩
  | _ => exact carried rfl rfl rfl

theorem InviteMove.credits (h : q.exec now scan w.db = .ok (r, db')) {v x : PortalInvite}
    (hmove : InviteMove now db' v x) (hv : w.db.Credits v) : db'.Credits x := by
  have carried : x.redeemedBy = v.redeemedBy → x.redeemedAt = v.redeemedAt →
      x.recipientEmail = v.recipientEmail → db'.Credits x := by
    intro hby hat hemail user hx
    obtain ⟨u, hu, hue, huat⟩ := hv user (hby.symm.trans hx)
    obtain ⟨u', hu', hue', huat'⟩ := users_stay h hu
    exact ⟨u', hu', hue'.trans (hue.trans hemail.symm), huat'.trans (huat.trans hat.symm)⟩
  cases hmove with
  | redeem user pending row =>
    intro user' hx
    cases hx
    exact ⟨_, row, rfl, rfl⟩
  | _ => exact carried rfl rfl rfl

theorem owns_later (h : q.exec now scan w.db = .ok (r, db')) {t s : PortalToken} (huser : s.userId = t.userId)
    (hat : s.metadata.createdAt = t.metadata.createdAt) (ht : w.db.Owns t) : db'.Owns s := by
  obtain ⟨u, hu, first, then_, hfirst, hthen, hle⟩ := ht
  obtain ⟨v, hv, -, hvat⟩ := users_stay h hu
  exact ⟨v, huser ▸ hv, first, then_, hvat.trans hfirst, hat.trans hthen, hle⟩

theorem owns_fresh (h : q.exec now scan w.db = .ok (r, db')) (hw : w.db.Coherent clock) (hnow : clock ≤ now)
    {id user : Uuid} {nonce : String} {expires : Instant} (howner : (w.db.users.get user).isSome) :
    db'.Owns (.fresh id user nonce expires now) := by
  obtain ⟨u, hu⟩ := Option.isSome_iff_exists.mp howner
  obtain ⟨life, -, inserted, changed, hi, -, hle, hspan, -⟩ := hw.users u (Table.get_eq_some.mp hu).1
  obtain ⟨v, hv, -, hvat⟩ := users_stay h hu
  exact ⟨v, hv, inserted, now, hvat.trans hi, rfl, Int.le_trans hspan (Int.le_trans hle hnow)⟩

/-- **Step.** -/
theorem exec_coherent (hruled : Ruled (.sql q) w) (hnow : clock ≤ now) (hw : w.db.Coherent clock)
    (h : q.exec now scan w.db = .ok (r, db')) : db'.Coherent now where
  users v hv := by
    rcases user_moves h hv with ⟨u, hu, hmove⟩ | ⟨id, email, rfl, -⟩
    · exact hmove.coherent (hw.users u hu) hnow
    · exact ⟨.active, rfl, spans_inserted now⟩
  tokens s hs := by
    rcases token_moves hruled.1 h hs with ⟨t, ht, hmove⟩ | ⟨id, user, nonce, expires, rfl, -, howner⟩
    · obtain ⟨hcoherent, howns, hsucceeds⟩ := hw.tokens t ht
      obtain ⟨-, huser, hat⟩ := hmove.keeps
      exact ⟨hmove.coherent hcoherent hnow, owns_later h huser hat howns, hmove.succeeds hruled.1 h hsucceeds⟩
    · refine ⟨⟨.active, rfl, spans_inserted now⟩, owns_fresh h hw hnow howner, ?_⟩
      intro successor hs
      cases hs
  invites v hv := by
    rcases invite_moves hruled.2 h hv with ⟨x, hx, hmove⟩ | ⟨id, email, nonce, expires, grantedBy, rfl⟩
    · obtain ⟨hcoherent, hcredits, hlate⟩ := hw.invites x hx
      refine ⟨hmove.coherent hcoherent hnow, hmove.credits h hcredits, fun hexpired => ?_⟩
      cases hmove with
      | stay => exact Int.lt_of_lt_of_le (hlate hexpired) hnow
      | expire pending late => exact late
      | redeem => cases hexpired
      | revoke => cases hexpired
    · refine ⟨⟨.pending, rfl, spans_inserted now⟩, ?_, fun hexpired => ?_⟩
      · intro user hv
        cases hv
      · cases hexpired

theorem Db.Coherent.later {db : Db} (h : db.Coherent clock) (hnow : clock ≤ now) : db.Coherent now where
  users u hu := (UserMove.stay u).coherent (h.users u hu) hnow
  tokens t ht := by
    obtain ⟨hcoherent, hrest⟩ := h.tokens t ht
    exact ⟨(TokenMove.stay t : TokenMove now db t t).coherent hcoherent hnow, hrest⟩
  invites v hv := by
    obtain ⟨hcoherent, hcredits, hlate⟩ := h.invites v hv
    refine ⟨(InviteMove.stay v : InviteMove now db v v).coherent hcoherent hnow, hcredits, fun hexpired => ?_⟩
    exact Int.lt_of_lt_of_le (hlate hexpired) hnow

theorem act_coherent {a : Act} {i : Env} (hruled : Ruled a w) (hnow : w.clock ≤ i.now)
    (hw : w.db.Coherent w.clock.stored) : (a.exec i w).2.db.Coherent (a.exec i w).2.clock.stored := by
  rw [Act.exec_clock]
  cases a with
  | sql q =>
    cases hq : (q.answer i w.db).1 with
    | error e =>
      have hdb : ((Act.sql q).exec i w).2.db = w.db := Stmt.answer_error hq
      rw [hdb]
      exact hw.later (stored_mono hnow)
    | ok r => exact exec_coherent hruled (stored_mono hnow) hw (Stmt.answer_ok hq).2
  | _ => exact hw.later (stored_mono hnow)

end

/-! ## Whole runs -/

theorem coherent_empty (clock : Instant) : Db.empty.Coherent clock :=
  ⟨fun _ h => absurd h List.not_mem_nil, fun _ h => absurd h List.not_mem_nil,
    fun _ h => absurd h List.not_mem_nil⟩

/-- **The rows are coherent.** Every run from coherent tables on a clock that does not
run backwards, whatever the calls and the failures, leaves coherent tables. -/
theorem rows_coherent (P : Portal) (pool : PortalPool) (hcalls : pool.calls = [])
    (hdb : pool.world.db.Coherent pool.world.clock.stored) (ms : List PortalMove)
    (hclock : pool.Admits (PortalCall.verb P) Forward ms) :
    (pool.play (PortalCall.verb P) ms).world.db.Coherent (pool.play (PortalCall.verb P) ms).world.clock.stored := by
  refine Pool.play_keeps_of (PortalCall.verb P) (I := fun R : PortalPool =>
    R.world.db.Coherent R.world.clock.stored) (fun R m hm hR => ?_) hdb ((verbs_ruled P hcalls ms).and _ hclock)
  rcases R.next_cases (PortalCall.verb P) m
    with ⟨t, -, hnext⟩ | ⟨j, i, c, a, k, rfl, hc, ha, hnext⟩ | ⟨j, i, -, hnext⟩
  · rw [hnext]
    exact hR
  · have hact := Pool.performs_step hc ha i
    rw [hnext]
    exact act_coherent (hm.1 _ hact) (hm.2 _ hact) hR
  · rw [hnext]
    exact hR

theorem rows_coherent_probe :
    ∃ v revokedAt, ((Probe.stage .empty).play (PortalCall.verb Probe.portal) Probe.withdrawn).world.db.invites.get
      (Probe.uuid 1) = some v ∧ v.status = .revoked ∧ v.revokedAt = some revokedAt ∧
      v.revocationReason = some "closed" ∧ v.redeemedBy = none := by
  have hrow : (((Probe.stage .empty).play (PortalCall.verb Probe.portal) Probe.withdrawn).world.db.invites.get
      (Probe.uuid 1)).map (fun v => (v.status, v.revocationReason)) = some (.revoked, some "closed") := by
    decide +kernel
  have hclock : (Probe.stage .empty).Admits (PortalCall.verb Probe.portal) Forward Probe.withdrawn := by
    decide +kernel
  obtain ⟨v, hv, hread⟩ := Option.map_eq_some_iff.mp hrow
  obtain ⟨hstatus, hreason⟩ := Prod.mk.inj hread
  obtain ⟨⟨life, hcode, -⟩, -, -⟩ := (rows_coherent Probe.portal (Probe.stage .empty) rfl (coherent_empty _)
    Probe.withdrawn hclock).invites v (Table.get_eq_some.mp hv).1
  cases life with
  | revoked revokedAt reason =>
    simp only [InviteLife.code, Prod.mk.injEq] at hcode
    exact ⟨v, revokedAt, hv, hstatus, hcode.2.2.2.1, hreason, hcode.2.2.1⟩
  | _ => cases hstatus.symm.trans (congrArg Prod.fst hcode)

end BackbonePortal
