import BackbonePortal.Effects

/-!
# Where the rows come from

Each row a statement leaves was there before, with at most its status and link
changed by one of the statements that change them, or it is the row the
statement inserted.
-/

namespace BackbonePortal

open Tables

section
variable {ρ κ ι : Type} {S : Schema ρ κ ι}

theorem mem_update {t u : Table S} {p : ρ → Bool} {f : ρ → ρ} {hk : ∀ r, S.key (f r) = S.key r}
    {hi : ∀ r, S.idx (f r) = S.idx r} {rs : List ρ} (h : t.update p f hk hi = .ok (rs, u))
    {r : ρ} (hr : r ∈ u.rows) :
    r ∈ t.rows ∨ ∃ s ∈ t.rows, p s = true ∧ r = f s := by
  rw [(Table.update_eq_ok h).2] at hr
  obtain ⟨s, hs, rfl⟩ := List.mem_map.mp hr
  by_cases hp : p s = true
  · rw [if_pos hp]
    exact .inr ⟨s, hs, hp, rfl⟩
  · rw [if_neg hp]
    exact .inl hs

theorem mem_insert [DecidableEq κ] [DecidableEq ι] {t u : Table S} {r s : ρ}
    (h : t.insert r = .ok u) (hs : s ∈ u.rows) :
    s ∈ t.rows ∨ s = r := by
  rw [(Table.insert_eq_ok.mp h).2] at hs
  exact (List.mem_append.mp hs).imp_right List.mem_singleton.mp

theorem update_answered [DecidableEq κ] {t u : Table S} {p : ρ → Bool} {f : ρ → ρ}
    {hk : ∀ r, S.key (f r) = S.key r}
    {hi : ∀ r, S.idx (f r) = S.idx r} {rs : List ρ} (h : t.update p f hk hi = .ok (rs, u))
    {s : ρ} (hs : s ∈ rs) :
    ∃ r, t.get (S.key s) = some r ∧ p r = true ∧ s = f r ∧ u.get (S.key s) = some s := by
  rw [(Table.update_eq_ok h).1] at hs
  obtain ⟨r, hr, rfl⟩ := List.mem_map.mp hs
  obtain ⟨hm, hp⟩ := List.mem_filter.mp hr
  refine ⟨r, ?_, hp, rfl, ?_⟩
  · rw [hk]
    exact Table.get_key hm
  · rw [Table.update_get h, hk, Table.get_key hm, Option.map_some, if_pos hp]

end

/-! ## Principals -/

structure UserStep (q : Stmt) (u v : PortalUser) : Prop where
  id : v.id = u.id
  live : v.live = u.live
  email : v.email = u.email
  link : v.sapiensUserId = u.sapiensUserId ∨ ∃ sapiens, q = .stampSapiens sapiens u.email ∧
    u.sapiensUserId = none ∧
    u.live = true ∧ v.sapiensUserId = some sapiens
  status : v.status = u.status ∨ ∃ reason, q = .revokeUser u.id reason ∧ u.status ≠ .revoked ∧ u.live = true ∧
    v.status = .revoked

def UserInserted (q : Stmt) (now : Instant) (db : Db) (v : PortalUser) : Prop :=
  ∃ id email, v = .fresh id email now ∧ db.users.get id = none ∧
    (q = .insertSignup id email ∨ ∃ invite, q = .redeemInvite invite id email)

theorem UserStep.refl (q : Stmt) (u : PortalUser) : UserStep q u u := ⟨rfl, rfl, rfl, .inl rfl, .inl rfl⟩

section
variable {q : Stmt} {now : Instant} {scan : Nat} {db db' : Db}

theorem user_origin {r : q.Res} (h : q.exec now scan db = .ok (r, db')) {v : PortalUser}
    (hv : v ∈ db'.users.rows) :
    (∃ u ∈ db.users.rows, UserStep q u v) ∨ UserInserted q now db v := by
  have same : db'.users = db.users → (∃ u ∈ db.users.rows, UserStep q u v) ∨
    UserInserted q now db v := fun he =>
    .inl ⟨v, he ▸ hv, .refl q v⟩
  cases q with
  | touchLastLogin id =>
    obtain ⟨users, hu, -, rfl⟩ := Db.updateUsers_ok h
    rcases mem_update hu hv with hm | ⟨u, hm, -, rfl⟩
    · exact .inl ⟨v, hm, .refl _ v⟩
    · exact .inl ⟨u, hm, rfl, rfl, rfl, .inl rfl, .inl rfl⟩
  | insertSignup id email =>
    rcases exec_insertSignup h with ⟨users, hi, -, rfl⟩ | ⟨c, -, -, rfl⟩
    · rcases mem_insert hi hv with hm | rfl
      · exact .inl ⟨v, hm, .refl _ v⟩
      · exact .inr ⟨id, email, rfl, (Table.insert_get_self hi).1, .inl rfl⟩
    · exact same rfl
  | revokeUser id reason =>
    obtain ⟨users, hu, -, rfl⟩ := Db.updateUsers_ok h
    rcases mem_update hu hv with hm | ⟨u, hm, hp, rfl⟩
    · exact .inl ⟨v, hm, .refl _ v⟩
    · simp only [Bool.and_eq_true, decide_eq_true_eq] at hp
      obtain ⟨⟨rfl, hs⟩, hl⟩ := hp
      exact .inl ⟨u, hm, rfl, rfl, rfl, .inl rfl, .inr ⟨reason, rfl, hs, hl, rfl⟩⟩
  | stampSapiens sapiens email =>
    obtain ⟨users, hu, -, rfl⟩ := Db.updateUsers_ok h
    rcases mem_update hu hv with hm | ⟨u, hm, hp, rfl⟩
    · exact .inl ⟨v, hm, .refl _ v⟩
    · simp only [Bool.and_eq_true, decide_eq_true_eq, Option.isNone_iff_eq_none] at hp
      obtain ⟨⟨rfl, hn⟩, hl⟩ := hp
      exact .inl ⟨u, hm, rfl, rfl, rfl, .inr ⟨sapiens, rfl, hn, hl, rfl⟩, .inl rfl⟩
  | updateDetails id sets =>
    obtain ⟨users, hu, -, rfl⟩ := Db.updateUsers_ok h
    rcases mem_update hu hv with hm | ⟨u, hm, -, rfl⟩
    · exact .inl ⟨v, hm, .refl _ v⟩
    · exact .inl ⟨u, hm, rfl, rfl, rfl, .inl rfl, .inl rfl⟩
  | redeemInvite invite id email =>
    rcases exec_redeemInvite h with ⟨-, rfl⟩ | ⟨settled, w, -, -, -, -, -, hi⟩
    · exact same rfl
    · obtain ⟨users, hin, rfl⟩ := Db.insertUser_ok hi
      rcases mem_insert hin hv with hm | rfl
      · exact .inl ⟨v, hm, .refl _ v⟩
      · exact .inr ⟨id, email, rfl, (Table.insert_get_self hin).1, .inr ⟨invite, rfl⟩⟩
  | _ => exact same ((exec_framed _ h).users (by simp [Stmt.writes]))

end

/-! ## Bearers -/

structure TokenStep (q : Stmt) (t s : PortalToken) : Prop where
  id : s.id = t.id
  keeps : TokenKeeps t s
  status : s.status = t.status ∨ t.status = .active ∧
    ((∃ successor user nonce expires, q = .rotateToken t.id successor user nonce expires ∧ s.status = .rotated ∧
      s.rotatedTo = some successor) ∨
    (∃ reason, q = .revokeToken t.id reason ∧ s.status = .revoked) ∨
    ∃ reason, q = .revokeUserTokens t.userId reason ∧ s.status = .revoked)

def TokenInserted (q : Stmt) (now : Instant) (db : Db) (s : PortalToken) : Prop :=
  ∃ id user nonce expires, s = .fresh id user nonce expires now ∧ db.tokens.get id = none ∧
    (q = .insertToken id user nonce expires ∨ ∃ old, q = .rotateToken old id user nonce expires)

theorem TokenStep.refl (q : Stmt) (t : PortalToken) : TokenStep q t t := ⟨rfl, .refl t, .inl rfl⟩

section
variable {q : Stmt} {now : Instant} {scan : Nat} {db db' : Db}

theorem token_origin {r : q.Res} (h : q.exec now scan db = .ok (r, db')) {s : PortalToken}
    (hs : s ∈ db'.tokens.rows) :
    (∃ t ∈ db.tokens.rows, TokenStep q t s) ∨ TokenInserted q now db s := by
  have same : db'.tokens = db.tokens → (∃ t ∈ db.tokens.rows, TokenStep q t s) ∨
    TokenInserted q now db s := fun he =>
    .inl ⟨s, he ▸ hs, .refl q s⟩
  cases q with
  | insertToken id user nonce expires =>
    obtain ⟨tokens, hi, -, rfl⟩ := Db.insertToken_ok (exec_insertToken h)
    rcases mem_insert hi hs with hm | rfl
    · exact .inl ⟨s, hm, .refl _ s⟩
    · exact .inr ⟨id, user, nonce, expires, rfl, (Table.insert_get_self hi).1, .inl rfl⟩
  | touchLastUsed id =>
    obtain ⟨tokens, ht, -, rfl⟩ := Db.updateTokens_ok h
    rcases mem_update ht hs with hm | ⟨t, hm, -, rfl⟩
    · exact .inl ⟨s, hm, .refl _ s⟩
    · exact .inl ⟨t, hm, rfl, ⟨rfl, rfl, rfl, rfl, fun _ => ⟨rfl, rfl⟩⟩, .inl rfl⟩
  | rotateToken id successor user nonce expires =>
    rcases exec_rotateToken h with ⟨-, rfl⟩ | ⟨spent, t, -, -, -, -, hu, hi⟩
    · exact same rfl
    · obtain ⟨tokens, hin, -, rfl⟩ := Db.insertToken_ok hi
      have hnone : db.tokens.get successor = none := by
        have hspent := (Table.insert_get_self hin).1
        rw [Table.update_get hu] at hspent
        exact Option.map_eq_none_iff.mp hspent
      rcases mem_insert hin hs with hm | rfl
      · rcases mem_update hu hm with ht | ⟨t, ht, hp, rfl⟩
        · exact .inl ⟨s, ht, .refl _ s⟩
        · simp only [Bool.and_eq_true, decide_eq_true_eq] at hp
          obtain ⟨rfl, ha⟩ := hp
          exact .inl ⟨t, ht, rfl, ⟨rfl, rfl, rfl, rfl, fun hn => absurd ha hn⟩,
            .inr ⟨ha, .inl ⟨successor, user, nonce, expires, rfl, rfl, rfl⟩⟩⟩
      · exact .inr ⟨successor, user, nonce, expires, rfl, hnone, .inr ⟨id, rfl⟩⟩
  | revokeToken id reason =>
    obtain ⟨tokens, ht, -, rfl⟩ := Db.updateTokens_ok h
    rcases mem_update ht hs with hm | ⟨t, hm, hp, rfl⟩
    · exact .inl ⟨s, hm, .refl _ s⟩
    · simp only [Bool.and_eq_true, decide_eq_true_eq] at hp
      obtain ⟨rfl, ha⟩ := hp
      exact .inl ⟨t, hm, rfl, ⟨rfl, rfl, rfl, rfl, fun hn => absurd ha hn⟩,
        .inr ⟨ha, .inr (.inl ⟨reason, rfl, rfl⟩)⟩⟩
  | revokeUserTokens user reason =>
    obtain ⟨tokens, ht, -, rfl⟩ := Db.updateTokens_ok h
    rcases mem_update ht hs with hm | ⟨t, hm, hp, rfl⟩
    · exact .inl ⟨s, hm, .refl _ s⟩
    · simp only [Bool.and_eq_true, decide_eq_true_eq] at hp
      obtain ⟨rfl, ha⟩ := hp
      exact .inl ⟨t, hm, rfl, ⟨rfl, rfl, rfl, rfl, fun hn => absurd ha hn⟩,
        .inr ⟨ha, .inr (.inr ⟨reason, rfl, rfl⟩)⟩⟩
  | _ => exact same ((exec_framed _ h).tokens (by simp [Stmt.writes]))

end

/-! ## Invitations -/

structure InviteStep (q : Stmt) (now : Instant) (v w : PortalInvite) : Prop where
  id : w.id = v.id
  keeps : InviteKeeps v w
  status : w.status = v.status ∨ v.status = .pending ∧
    ((∃ user email, q = .redeemInvite v.id user email ∧ w.status = .redeemed ∧ w.redeemedBy = some user) ∨
    (∃ reason, q = .revokeInvite v.id reason ∧ w.status = .revoked) ∨
    (∃ reason, q = .revokePending v.recipientEmail reason ∧ w.status = .revoked) ∨
    q = .sweepExpired ∧ v.tokenExpiresAt < now ∧ w.status = .expired)

def InviteInserted (q : Stmt) (now : Instant) (db : Db) (w : PortalInvite) : Prop :=
  ∃ id email nonce expires grantedBy, w = .fresh id email nonce expires grantedBy now ∧
    db.invites.get id = none ∧
    q = .insertInvite id email nonce expires grantedBy

theorem InviteStep.refl (q : Stmt) (now : Instant) (v : PortalInvite) : InviteStep q now v v :=
  ⟨rfl, .refl v, .inl rfl⟩

section
variable {q : Stmt} {now : Instant} {scan : Nat} {db db' : Db}

theorem invite_origin {r : q.Res} (h : q.exec now scan db = .ok (r, db')) {w : PortalInvite}
    (hw : w ∈ db'.invites.rows) :
    (∃ v ∈ db.invites.rows, InviteStep q now v w) ∨ InviteInserted q now db w := by
  have same : db'.invites = db.invites → (∃ v ∈ db.invites.rows, InviteStep q now v w) ∨
    InviteInserted q now db w :=
    fun he => .inl ⟨w, he ▸ hw, .refl q now w⟩
  cases q with
  | insertInvite id email nonce expires grantedBy =>
    obtain ⟨invites, hi, rfl⟩ := exec_insertInvite h
    rcases mem_insert hi hw with hm | rfl
    · exact .inl ⟨w, hm, .refl _ now w⟩
    · exact .inr ⟨id, email, nonce, expires, grantedBy, rfl, (Table.insert_get_self hi).1, rfl⟩
  | redeemInvite id user email =>
    rcases exec_redeemInvite h with ⟨-, rfl⟩ | ⟨settled, v, -, -, -, -, hu, hi⟩
    · exact same rfl
    · obtain ⟨users, -, rfl⟩ := Db.insertUser_ok hi
      rcases mem_update hu hw with hm | ⟨v, hm, hp, rfl⟩
      · exact .inl ⟨w, hm, .refl _ now w⟩
      · simp only [Bool.and_eq_true, decide_eq_true_eq] at hp
        obtain ⟨rfl, ha⟩ := hp
        exact .inl ⟨v, hm, rfl, ⟨rfl, rfl, rfl, rfl, fun hn => absurd ha hn⟩,
          .inr ⟨ha, .inl ⟨user, email, rfl, rfl, rfl⟩⟩⟩
  | revokeInvite id reason =>
    obtain ⟨invites, hv, -, rfl⟩ := Db.updateInvites_ok h
    rcases mem_update hv hw with hm | ⟨v, hm, hp, rfl⟩
    · exact .inl ⟨w, hm, .refl _ now w⟩
    · simp only [Bool.and_eq_true, decide_eq_true_eq] at hp
      obtain ⟨rfl, ha⟩ := hp
      exact .inl ⟨v, hm, rfl, ⟨rfl, rfl, rfl, rfl, fun hn => absurd ha hn⟩,
        .inr ⟨ha, .inr (.inl ⟨reason, rfl, rfl⟩)⟩⟩
  | revokePending email reason =>
    obtain ⟨invites, hv, -, rfl⟩ := Db.updateInvites_ok h
    rcases mem_update hv hw with hm | ⟨v, hm, hp, rfl⟩
    · exact .inl ⟨w, hm, .refl _ now w⟩
    · simp only [Bool.and_eq_true, decide_eq_true_eq] at hp
      obtain ⟨rfl, ha⟩ := hp
      exact .inl ⟨v, hm, rfl, ⟨rfl, rfl, rfl, rfl, fun hn => absurd ha hn⟩,
        .inr ⟨ha, .inr (.inr (.inl ⟨reason, rfl, rfl⟩))⟩⟩
  | sweepExpired =>
    obtain ⟨invites, hv, -, rfl⟩ := Db.updateInvites_ok h
    rcases mem_update hv hw with hm | ⟨v, hm, hp, rfl⟩
    · exact .inl ⟨w, hm, .refl _ now w⟩
    · simp only [Bool.and_eq_true, decide_eq_true_eq] at hp
      exact .inl ⟨v, hm, rfl, ⟨rfl, rfl, rfl, rfl, fun hn => absurd hp.1 hn⟩,
        .inr ⟨hp.1, .inr (.inr (.inr ⟨rfl, hp.2, rfl⟩))⟩⟩
  | _ => exact same ((exec_framed _ h).invites (by simp [Stmt.writes]))

end

end BackbonePortal
