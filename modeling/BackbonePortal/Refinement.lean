import BackbonePortal.Calls
import BackbonePortal.InviteOneShot
import BackbonePortal.Origins
import BackbonePortal.Registry
import BackbonePortal.RotationChain

/-!
# The portal refines a registry of access

The portal tables are a registry: principals at addresses, bearers, invitations.
Each statement leaves it alone or makes one allowed change of it, so every run
is a history, and what a history keeps and where its entries come from hold of
the tables.
-/

namespace BackbonePortal

open Proc Tables Registries

abbrev AccessRegistry := Registry Uuid String Uuid Uuid

abbrev AccessChange := Change Uuid String Uuid Uuid

/-! ## The registry in the tables -/

def PortalUser.entry (u : PortalUser) : String × Standing :=
  (u.email, if u.status = .active then .active else .dismissed)

def PortalToken.fate (t : PortalToken) : Fate Uuid :=
  match t.status, t.rotatedTo with
  | .active, _ => .live
  | .rotated, some successor => .replaced successor
  | _, _ => .cancelled

def PortalToken.entry (t : PortalToken) : Uuid × Fate Uuid := (t.userId, t.fate)

def PortalInvite.course (v : PortalInvite) : Course Uuid :=
  match v.status, v.redeemedBy with
  | .pending, _ => .pending
  | .redeemed, some user => .redeemed user
  | .expired, _ => .lapsed
  | _, _ => .withdrawn

def PortalInvite.entry (v : PortalInvite) : String × Course Uuid := (v.recipientEmail, v.course)

def Db.registry (db : Db) : AccessRegistry where
  principal id := (db.users.get id).map (·.entry)
  bearer id := (db.tokens.get id).map (·.entry)
  invitation id := (db.invites.get id).map (·.entry)

/-- The tables hold nothing the module does not write: live principals, active
or revoked, and a lawful registry. -/
structure Db.Sound (db : Db) : Prop where
  users : ∀ u ∈ db.users.rows, u.live = true ∧ (u.status = .active ∨ u.status = .revoked)
  lawful : db.registry.Lawful

/-- The change of the registry an answered statement makes. -/
def Causes : Event portalSig → AccessChange → Prop
  | ⟨.sql (.insertInvite id email ..), .ok _⟩, c => c = .invite id email
  | ⟨.sql (.redeemInvite id user _), .ok true⟩, c => c = .redeem id user
  | ⟨.sql (.revokeInvite id _), .ok _⟩, c => c = .withdraw fun i _ => i = id
  | ⟨.sql (.revokePending email _), .ok _⟩, c => c = .withdraw fun _ a => a = email
  | ⟨.sql .sweepExpired, .ok _⟩, c => ∃ due, c = .lapse due
  | ⟨.sql (.insertSignup id email), .ok (some _)⟩, c => c = .enroll id email
  | ⟨.sql (.insertToken id user ..), .ok _⟩, c => c = .issue id user
  | ⟨.sql (.rotateToken id successor ..), .ok true⟩, c => c = .rotate id successor
  | ⟨.sql (.revokeToken id _), .ok _⟩, c => c = .cancel fun b _ => b = id
  | ⟨.sql (.revokeUserTokens user _), .ok _⟩, c => c = .cancel fun _ p => p = user
  | ⟨.sql (.revokeUser user _), .ok (some _)⟩, c => c = .dismiss user
  | _, _ => False

/-! ## Reading the registry -/

section
variable {db : Db} {id user : Uuid} {email : String}

theorem registry_principal {u : PortalUser} (h : db.users.get id = some u) :
    db.registry.principal id = some u.entry := by
  simp only [Db.registry, h, Option.map_some]

theorem registry_bearer {t : PortalToken} (h : db.tokens.get id = some t) :
    db.registry.bearer id = some t.entry := by
  simp only [Db.registry, h, Option.map_some]

theorem registry_invitation {v : PortalInvite} (h : db.invites.get id = some v) :
    db.registry.invitation id = some v.entry := by
  simp only [Db.registry, h, Option.map_some]

theorem principal_vacant (hdb : db.Sound) (h : db.principal email = none) : db.registry.Vacant email := by
  intro p x hp
  obtain ⟨u, hu, he⟩ := Option.map_eq_some_iff.mp hp
  have hmem := (Table.get_eq_some.mp hu).1
  exact Db.principal_eq_none.mp h u hmem (hdb.users u hmem).1 (congrArg Prod.fst he)

theorem insert_vacant {u : PortalUser} {users : Table userSchema} (h : db.users.insert u = .ok users)
    (hl : u.live = true) : db.principal u.email = none := by
  refine Db.principal_eq_none.mpr fun v hv hvl he => ?_
  have hmem : ∀ x ∈ db.users.rows ++ [u], x ∈ users.rows := fun x hx => (Table.insert_eq_ok.mp h).2 ▸ hx
  have hidx : ∀ x : PortalUser, x.live = true → x.email = u.email → userSchema.idx x = some u.email := by
    intro x hx hxe
    simp [userSchema, hx, hxe]
  have heq : v = u := users.idx_inj (hmem v (List.mem_append_left _ hv))
    (hmem u (List.mem_append_right _ (List.mem_singleton.mpr rfl))) (hidx v hvl he) (hidx u hl rfl)
  exact Table.get_eq_none.mp (Table.insert_get_self h).1 v hv (congrArg PortalUser.id heq)

end

/-! ## What a statement does to the registry -/

section
variable {db : Db} {now : Instant}

theorem registry_users {users : Table userSchema} (h : ∀ id, (users.get id).map (·.entry) =
    (db.users.get id).map (·.entry)) : { db with users }.registry = db.registry := by
  ext1
  · exact funext h
  · rfl
  · rfl

theorem update_keeps_entries {p : PortalUser → Bool} {f : PortalUser → PortalUser}
    {hk : ∀ u, userSchema.key (f u) = userSchema.key u} {hi : ∀ u, userSchema.idx (f u) = userSchema.idx u}
    {rs : List PortalUser} {users : Table userSchema} (hu : db.users.update p f hk hi = .ok (rs, users))
    (hf : ∀ u ∈ db.users.rows, p u = true → (f u).entry = u.entry) :
    { db with users }.registry = db.registry := by
  refine registry_users fun id => ?_
  rw [Table.update_get hu, Option.map_map]
  cases hget : db.users.get id with
  | none => rfl
  | some u =>
    refine congrArg some ?_
    show (if p u then f u else u).entry = u.entry
    split
    next hp => exact hf u (Table.get_eq_some.mp hget).1 hp
    next => rfl

theorem insertUser_registry {id : Uuid} {email : String} {users : Table userSchema}
    (h : db.users.insert (.fresh id email now) = .ok users) :
    { db with users }.registry.principal = Function.update db.registry.principal id (some (email, .active)) := by
  obtain ⟨-, hself⟩ := Table.insert_get_self h
  funext k
  by_cases hk : k = id
  · subst hk
    rw [Function.update_self]
    exact @registry_principal { db with users } _ _ hself
  · rw [Function.update_of_ne hk]
    show (users.get k).map _ = (db.users.get k).map _
    rw [Table.insert_get_other h fun e => hk e.symm]

theorem insertToken_registry {id user : Uuid} {nonce : String} {expires : Instant} {tokens : Table tokenSchema}
    (h : db.tokens.insert (.fresh id user nonce expires now) = .ok tokens) :
    { db with tokens }.registry.bearer = Function.update db.registry.bearer id (some (user, .live)) := by
  obtain ⟨-, hself⟩ := Table.insert_get_self h
  funext k
  by_cases hk : k = id
  · subst hk
    rw [Function.update_self]
    exact @registry_bearer { db with tokens } _ _ hself
  · rw [Function.update_of_ne hk]
    show (tokens.get k).map _ = (db.tokens.get k).map _
    rw [Table.insert_get_other h fun e => hk e.symm]

theorem insertInvite_registry {id : Uuid} {email nonce : String} {expires : Instant} {grantedBy : Option Uuid}
    {invites : Table inviteSchema}
    (h : db.invites.insert (.fresh id email nonce expires grantedBy now) = .ok invites) :
    { db with invites }.registry = db.registry.apply (.invite id email) := by
  obtain ⟨-, hself⟩ := Table.insert_get_self h
  ext1
  · rfl
  · rfl
  · funext k
    by_cases hk : k = id
    · subst hk
      simp only [Registry.apply, Function.update_self]
      exact @registry_invitation { db with invites } _ _ hself
    · simp only [Registry.apply, Function.update_of_ne hk]
      show (invites.get k).map _ = (db.invites.get k).map _
      rw [Table.insert_get_other h fun e => hk e.symm]

/-- The pending invitations an UPDATE matches come to an end. -/
theorem updateInvites_registry {p : PortalInvite → Bool} {f : PortalInvite → PortalInvite}
    {hk : ∀ v, inviteSchema.key (f v) = inviteSchema.key v}
    {hi : ∀ v, inviteSchema.idx (f v) = inviteSchema.idx v} {rs : List PortalInvite} {invites : Table inviteSchema}
    (hu : db.invites.update p f hk hi = .ok (rs, invites)) (which : Uuid → String → Bool) {into : Course Uuid}
    (hp : ∀ v ∈ db.invites.rows, p v = true ↔ v.status = .pending ∧ which v.id v.recipientEmail = true)
    (hf : ∀ v, v.status = .pending → (f v).entry = (v.recipientEmail, into)) (id : Uuid) :
    { db with invites }.registry.invitation id = (db.registry.invitation id).map fun e =>
      (e.1, if which id e.1 then e.2.ended into else e.2) := by
  show (invites.get id).map _ = ((db.invites.get id).map _).map _
  rw [Table.update_get hu, Option.map_map, Option.map_map]
  cases hv : db.invites.get id with
  | none => rfl
  | some v =>
    obtain ⟨hm, hid⟩ := Table.get_eq_some.mp hv
    refine congrArg some ?_
    show (if p v then f v else v).entry = (v.recipientEmail, if which id v.recipientEmail then v.course.ended into
      else v.course)
    rw [show id = v.id from hid.symm]
    by_cases hpv : p v = true
    · obtain ⟨hpending, hwhich⟩ := (hp v hm).mp hpv
      rw [if_pos hpv, if_pos hwhich, hf v hpending]
      simp only [PortalInvite.course, hpending, Course.ended]
    · rw [if_neg hpv]
      split
      next hwhich =>
        -- an invitation that is not pending has ended before
        have hpending : v.status ≠ .pending := fun h => hpv ((hp v hm).mpr ⟨h, hwhich⟩)
        refine congrArg (Prod.mk v.recipientEmail) ?_
        unfold PortalInvite.course
        cases hs : v.status with
        | pending => exact absurd hs hpending
        | redeemed => cases v.redeemedBy <;> rfl
        | revoked => rfl
        | expired => rfl
      next => rfl

theorem updateTokens_registry {p : PortalToken → Bool} {reason : String}
    {hk : ∀ t, tokenSchema.key (t.revoke reason now) = tokenSchema.key t}
    {hi : ∀ t, tokenSchema.idx (t.revoke reason now) = tokenSchema.idx t} {rs : List PortalToken}
    {tokens : Table tokenSchema}
    (hu : db.tokens.update p (·.revoke reason now) hk hi = .ok (rs, tokens)) {which : Uuid → Uuid → Bool}
    (hp : ∀ t, p t = true ↔ t.status = .active ∧ which t.id t.userId = true) :
    { db with tokens }.registry = db.registry.apply (.cancel which) := by
  ext1
  · rfl
  · funext id
    show (tokens.get id).map _ = ((db.tokens.get id).map _).map _
    rw [Table.update_get hu, Option.map_map, Option.map_map]
    cases ht : db.tokens.get id with
    | none => rfl
    | some t =>
      have hid : t.id = id := (Table.get_eq_some.mp ht).2
      subst hid
      refine congrArg some ?_
      show (if p t then t.revoke reason now else t).entry = (t.userId, if which t.id t.userId then t.fate.ended
        else t.fate)
      by_cases hpt : p t = true
      · obtain ⟨hactive, hwhich⟩ := (hp t).mp hpt
        rw [if_pos hpt, if_pos hwhich]
        simp only [PortalToken.entry, PortalToken.fate, PortalToken.revoke, hactive, Fate.ended]
      · rw [if_neg hpt]
        split
        next hwhich =>
          have hspent : t.status ≠ .active := fun h => hpt ((hp t).mpr ⟨h, hwhich⟩)
          refine congrArg (Prod.mk t.userId) ?_
          unfold PortalToken.fate
          cases hs : t.status with
          | active => exact absurd hs hspent
          | rotated => cases t.rotatedTo <;> rfl
          | revoked => rfl
        next => rfl
  · rfl

end

/-! ## One statement, one change -/

/-- The step leaves the registry alone or makes the allowed change the event causes. -/
def Advances (ev : Event portalSig) (db db' : Db) : Prop :=
  db'.registry = db.registry ∨
    ∃ c, Causes ev c ∧ db.registry.Allows c ∧ db'.registry = db.registry.apply c

section
variable {w : World} {now : Instant} {scan : Nat} {db' : Db}

theorem advances_framed {q : Stmt} {r : q.Res} (h : q.exec now scan w.db = .ok (r, db'))
    (hq : .users ∉ q.writes ∧ .tokens ∉ q.writes ∧ .invites ∉ q.writes) : Advances ⟨.sql q, .ok r⟩ w.db db' := by
  have hframe := exec_framed q h
  refine .inl ?_
  unfold Db.registry
  rw [hframe.users hq.1, hframe.tokens hq.2.1, hframe.invites hq.2.2]

theorem advances_users {q : Stmt} {r : q.Res} {p : PortalUser → Bool} {f : PortalUser → PortalUser}
    {hk : ∀ u, userSchema.key (f u) = userSchema.key u} {hi : ∀ u, userSchema.idx (f u) = userSchema.idx u}
    {α : Type} {answer : List PortalUser → α} {a : α}
    (h : w.db.updateUsers p f hk hi answer = .ok (a, db')) (hf : ∀ u, (f u).entry = u.entry) :
    Advances ⟨.sql q, .ok r⟩ w.db db' := by
  obtain ⟨users, hu, -, rfl⟩ := Db.updateUsers_ok h
  exact .inl (update_keeps_entries hu fun u _ _ => hf u)

theorem advances_revokeUser {user : Uuid} {reason : String} {r : Option String} (hs : w.db.Sound)
    (h : (Stmt.revokeUser user reason).exec now scan w.db = .ok (r, db')) :
    Advances ⟨.sql (.revokeUser user reason), .ok r⟩ w.db db' := by
  obtain ⟨users, hu, rfl, rfl⟩ := Db.updateUsers_ok h
  cases hrows : w.db.users.rows.filter fun u => u.id = user && u.status ≠ .revoked && u.live with
  | nil =>
    refine .inl (update_keeps_entries hu fun u hm hp => ?_)
    exact absurd (List.mem_filter.mpr ⟨hm, hp⟩) (hrows ▸ List.not_mem_nil)
  | cons u rows =>
    obtain ⟨hm, hp⟩ := List.mem_filter.mp (hrows ▸ List.mem_cons_self : u ∈ w.db.users.rows.filter _)
    simp only [Bool.and_eq_true, decide_eq_true_eq] at hp
    obtain ⟨⟨rfl, hne⟩, hl⟩ := hp
    have hactive : u.status = .active := (hs.users u hm).2.resolve_right hne
    have hget : w.db.users.get u.id = some u := Table.get_key hm
    have hentry : w.db.registry.principal u.id = some (u.email, .active) := by
      rw [registry_principal hget, PortalUser.entry, if_pos hactive]
    refine .inr ⟨.dismiss u.id, rfl, ⟨u.email, hentry⟩, ?_⟩
    ext1
    · funext k
      simp only [Registry.apply, hentry, Option.map_some]
      by_cases hk : k = u.id
      · subst hk
        rw [Function.update_self]
        show (users.get u.id).map _ = _
        rw [Table.update_get hu, hget]
        simp [PortalUser.entry, PortalUser.revoke, hactive, hl]
      · rw [Function.update_of_ne hk]
        show (users.get k).map _ = (w.db.users.get k).map _
        rw [Table.update_get hu, Option.map_map]
        cases hv : w.db.users.get k with
        | none => rfl
        | some v =>
          have hid : v.id ≠ u.id := fun e => hk ((Table.get_eq_some.mp hv).2.symm.trans e)
          simp [hid]
    · rfl
    · rfl

theorem advances_rotate {id successor user : Uuid} {nonce : String} {expires : Instant} {r : Bool}
    (hown : OwnsRotated (.sql (.rotateToken id successor user nonce expires)) w)
    (h : (Stmt.rotateToken id successor user nonce expires).exec now scan w.db = .ok (r, db')) :
    Advances ⟨.sql (.rotateToken id successor user nonce expires), .ok r⟩ w.db db' := by
  rcases exec_rotateToken h with ⟨-, rfl⟩ | ⟨spent, t, rfl, hm, rfl, hactive, hu, hi⟩
  · exact .inl rfl
  obtain ⟨t', ht', huser⟩ := hown
  have hget : w.db.tokens.get t.id = some t := Table.get_key hm
  rw [hget] at ht'; cases ht'
  obtain ⟨tokens, hin, -, rfl⟩ := Db.insertToken_ok hi
  have hlive : w.db.registry.bearer t.id = some (user, .live) := by
    rw [registry_bearer hget]
    simp only [PortalToken.entry, PortalToken.fate, hactive, huser]
  have hfree : w.db.tokens.get successor = none := by
    have hspent := (Table.insert_get_self hin).1
    rw [Table.update_get hu] at hspent
    exact Option.map_eq_none_iff.mp hspent
  have hspend : { w.db with tokens := spent }.registry.bearer =
      Function.update w.db.registry.bearer t.id (some (user, .replaced successor)) := by
    funext k
    show (spent.get k).map _ = _
    rw [Table.update_get hu]
    by_cases hk : k = t.id
    · subst hk
      rw [Function.update_self, hget]
      simp [PortalToken.entry, PortalToken.fate, PortalToken.rotate, hactive, huser]
    · rw [Function.update_of_ne hk]
      show _ = (w.db.tokens.get k).map _
      rw [Option.map_map]
      cases hs : w.db.tokens.get k with
      | none => rfl
      | some s =>
        have hid : s.id ≠ t.id := fun e => hk ((Table.get_eq_some.mp hs).2.symm.trans e)
        simp [hid]
  refine .inr ⟨.rotate t.id successor, rfl, ⟨?_, user, hlive⟩, ?_⟩
  · show (w.db.tokens.get successor).map _ = none
    rw [hfree]
    rfl
  · ext1
    · simp only [Registry.apply, hlive]
      rfl
    · simp only [Registry.apply, hlive]
      rw [← hspend]
      exact @insertToken_registry { w.db with tokens := spent } _ _ _ _ _ _ hin
    · simp only [Registry.apply, hlive]
      rfl

theorem advances_redeem {id user : Uuid} {email : String} {r : Bool} (hs : w.db.Sound)
    (hnames : NamesRecipient (.sql (.redeemInvite id user email)) w)
    (h : (Stmt.redeemInvite id user email).exec now scan w.db = .ok (r, db')) :
    Advances ⟨.sql (.redeemInvite id user email), .ok r⟩ w.db db' := by
  rcases exec_redeemInvite h with ⟨-, rfl⟩ | ⟨settled, v, rfl, hm, rfl, hpending, hu, hi⟩
  · exact .inl rfl
  obtain ⟨v', hv', hemail⟩ := hnames
  have hget : w.db.invites.get v.id = some v := Table.get_key hm
  rw [hget] at hv'; cases hv'
  obtain ⟨users, hin, rfl⟩ := Db.insertUser_ok hi
  have hentry : w.db.registry.invitation v.id = some (email, .pending) := by
    rw [registry_invitation hget]
    simp only [PortalInvite.entry, PortalInvite.course, hpending, hemail]
  have hsettle : { w.db with invites := settled }.registry.invitation =
      Function.update w.db.registry.invitation v.id (some (email, .redeemed user)) := by
    funext k
    show (settled.get k).map _ = _
    rw [Table.update_get hu]
    by_cases hk : k = v.id
    · subst hk
      rw [Function.update_self, hget]
      simp [PortalInvite.entry, PortalInvite.course, PortalInvite.redeem, hpending, hemail]
    · rw [Function.update_of_ne hk]
      show _ = (w.db.invites.get k).map _
      rw [Option.map_map]
      cases hx : w.db.invites.get k with
      | none => rfl
      | some x =>
        have hid : x.id ≠ v.id := fun e => hk ((Table.get_eq_some.mp hx).2.symm.trans e)
        simp [hid]
  refine .inr ⟨.redeem v.id user, rfl, ⟨?_, email, hentry, principal_vacant hs (insert_vacant hin rfl)⟩, ?_⟩
  · show (w.db.users.get user).map _ = none
    rw [show w.db.users.get user = none from (Table.insert_get_self hin).1]
    rfl
  · ext1
    · simp only [Registry.apply, hentry]
      exact @insertUser_registry { w.db with invites := settled } _ _ _ _ hin
    · simp only [Registry.apply, hentry]
      rfl
    · simp only [Registry.apply, hentry]
      rw [← hsettle]
      rfl

/-- **Step.** An answered statement makes at most one change of the registry,
and an allowed one. -/
theorem exec_advances {q : Stmt} {r : q.Res} (hs : w.db.Sound) (hown : OwnsRotated (.sql q) w)
    (hnames : NamesRecipient (.sql q) w) (h : q.exec now scan w.db = .ok (r, db')) :
    Advances ⟨.sql q, .ok r⟩ w.db db' := by
  cases q with
  | touchLastLogin id => exact advances_users h fun _ => rfl
  | stampSapiens sapiens email => exact advances_users h fun _ => rfl
  | updateDetails id sets => exact advances_users h fun _ => rfl
  | revokeUser id reason => exact advances_revokeUser hs h
  | rotateToken id successor user nonce expires => exact advances_rotate hown h
  | redeemInvite id user email => exact advances_redeem hs hnames h
  | insertSignup id email =>
    rcases exec_insertSignup h with ⟨users, hi, rfl, rfl⟩ | ⟨-, -, -, rfl⟩
    · refine .inr ⟨.enroll id email, rfl, ⟨?_, principal_vacant hs (insert_vacant hi rfl)⟩, ?_⟩
      · show (w.db.users.get id).map _ = none
        rw [show w.db.users.get id = none from (Table.insert_get_self hi).1]
        rfl
      · ext1
        · exact insertUser_registry hi
        · rfl
        · rfl
    · exact .inl rfl
  | insertToken id user nonce expires =>
    obtain ⟨tokens, hi, howner, rfl⟩ := Db.insertToken_ok (exec_insertToken h)
    refine .inr ⟨.issue id user, rfl, ⟨?_, ?_⟩, ?_⟩
    · show (w.db.tokens.get id).map _ = none
      rw [show w.db.tokens.get id = none from (Table.insert_get_self hi).1]
      rfl
    · show ((w.db.users.get user).map _).isSome = true
      rw [Option.isSome_map]
      exact howner
    · ext1
      · rfl
      · exact insertToken_registry hi
      · rfl
  | touchLastUsed id =>
    obtain ⟨tokens, hu, -, rfl⟩ := Db.updateTokens_ok h
    refine .inl ?_
    ext1
    · rfl
    · funext k
      show (tokens.get k).map _ = (w.db.tokens.get k).map _
      rw [Table.update_get hu, Option.map_map]
      cases w.db.tokens.get k with
      | none => rfl
      | some t =>
        refine congrArg some ?_
        show (if _ then t.use now else t).entry = t.entry
        split <;> rfl
    · rfl
  | revokeToken id reason =>
    obtain ⟨tokens, hu, -, rfl⟩ := Db.updateTokens_ok h
    refine .inr ⟨_, rfl, trivial, updateTokens_registry hu fun t => ?_⟩
    simp only [Bool.and_eq_true, decide_eq_true_eq]
    exact and_comm
  | revokeUserTokens user reason =>
    obtain ⟨tokens, hu, -, rfl⟩ := Db.updateTokens_ok h
    refine .inr ⟨_, rfl, trivial, updateTokens_registry hu fun t => ?_⟩
    simp only [Bool.and_eq_true, decide_eq_true_eq]
    exact and_comm
  | insertInvite id email nonce expires grantedBy =>
    obtain ⟨invites, hi, rfl⟩ := exec_insertInvite h
    refine .inr ⟨.invite id email, rfl, ?_, insertInvite_registry hi⟩
    show (w.db.invites.get id).map _ = none
    rw [show w.db.invites.get id = none from (Table.insert_get_self hi).1]
    rfl
  | revokeInvite id reason =>
    obtain ⟨invites, hu, -, rfl⟩ := Db.updateInvites_ok h
    refine .inr ⟨_, rfl, trivial, ?_⟩
    ext1
    · rfl
    · rfl
    · refine funext (updateInvites_registry hu (fun i _ => i = id) (fun v _ => ?_) fun v _ => rfl)
      simp only [Bool.and_eq_true, decide_eq_true_eq]
      exact and_comm
  | revokePending email reason =>
    obtain ⟨invites, hu, -, rfl⟩ := Db.updateInvites_ok h
    refine .inr ⟨_, rfl, trivial, ?_⟩
    ext1
    · rfl
    · rfl
    · refine funext (updateInvites_registry hu (fun _ a => a = email) (fun v _ => ?_) fun v _ => rfl)
      simp only [Bool.and_eq_true, decide_eq_true_eq]
      exact and_comm
  | sweepExpired =>
    obtain ⟨invites, hu, -, rfl⟩ := Db.updateInvites_ok h
    let due : Uuid → String → Bool := fun id _ => (w.db.invites.get id).any fun v => v.tokenExpiresAt < now
    refine .inr ⟨.lapse due, ⟨_, rfl⟩, trivial, ?_⟩
    ext1
    · rfl
    · rfl
    · refine funext (updateInvites_registry hu due (fun v hm => ?_) fun v _ => rfl)
      have hget : w.db.invites.get v.id = some v := Table.get_key hm
      simp only [due, Bool.and_eq_true, decide_eq_true_eq, hget, Option.any_some]
  | _ => exact advances_framed h (by simp [Stmt.writes])

end

/-! ## The machine -/

/-- What the verbs see to before they rotate or redeem. -/
def Ruled (a : Act) (w : World) : Prop := OwnsRotated a w ∧ NamesRecipient a w

theorem exec_sound {w : World} {now : Instant} {scan : Nat} {db' : Db} {q : Stmt} {r : q.Res} (hs : w.db.Sound)
    (hadvances : Advances ⟨.sql q, .ok r⟩ w.db db') (h : q.exec now scan w.db = .ok (r, db')) : db'.Sound := by
  refine ⟨fun v hv => ?_, ?_⟩
  · rcases user_origin h hv with ⟨u, hu, hstep⟩ | ⟨_, _, rfl, -, -⟩
    · obtain ⟨hl, hstatus⟩ := hs.users u hu
      refine ⟨hstep.live.trans hl, ?_⟩
      rcases hstep.status with he | ⟨_, -, -, -, he⟩
      · rw [he]
        exact hstatus
      · exact .inr he
    · exact ⟨rfl, .inl rfl⟩
  · rcases hadvances with he | ⟨c, -, hallows, he⟩
    · rw [he]
      exact hs.lawful
    · rw [he]
      exact hs.lawful.apply hallows

theorem act_refines {a : Act} {i : Env} {w : World} (hr : Ruled a w) (hs : w.db.Sound) :
    Db.Sound (a.exec i w).2.db ∧ Advances ⟨a, (a.exec i w).1⟩ w.db (a.exec i w).2.db := by
  cases a with
  | sql q =>
    cases hq : (q.answer i w.db).1 with
    | error e =>
      have hdb : ((Act.sql q).exec i w).2.db = w.db := Stmt.answer_error hq
      rw [hdb]
      exact ⟨hs, .inl rfl⟩
    | ok r =>
      have hexec := (Stmt.answer_ok hq).2
      have hadvances := exec_advances hs hr.1 hr.2 hexec
      rw [show ((Act.sql q).exec i w).1 = .ok r from hq]
      exact ⟨exec_sound hs hadvances hexec, hadvances⟩
  | _ => exact ⟨hs, .inl rfl⟩

theorem portal_refines : portalMachine.Refines Ruled (fun w => w.db.Sound) (Registry.model Uuid String Uuid Uuid)
    (fun w => w.db.registry) Causes where
  keeps _ _ _ hr hs := (act_refines hr hs).1
  step _ _ _ hr hs := (act_refines hr hs).2

theorem verb_owns (P : Portal) (t : PortalCall) (w : World) :
    Guarded OwnsRotated (fun _ _ => True) (t.verb P) w := by
  have hun : ∀ a, Act.Basic a → Act.Unrotating a := fun _ h => h.common.plain.unrotating
  cases t with
  | request t => exact serve_owns t
  | customer call => exact owns_trivial (customer_all P hun call)
  | mintRecipient user email =>
    exact owns_trivial (.bind (mintRecipientCredential_all P hun user email) fun _ => trivial)

theorem verb_names (P : Portal) (t : PortalCall) (w : World) :
    Guarded NamesRecipient (fun _ _ => True) (t.verb P) w := by
  have hun : ∀ a, Act.Basic a → Act.Unredeeming a := fun _ h => h.common.plain.unredeeming
  cases t with
  | request t => exact serve_names t
  | customer call => exact names_trivial (customer_all P hun call)
  | mintRecipient user email =>
    exact names_trivial (.bind (mintRecipientCredential_all P hun user email) fun _ => trivial)

theorem verbs_ruled (P : Portal) {pool : PortalPool} (hcalls : pool.calls = []) (ms : List PortalMove) :
    pool.Admits (PortalCall.verb P) (fun R m => ∀ x ∈ R.performs m, Ruled x.1 R.world) ms := by
  have howns := Pool.play_guarded (M := portalMachine) (G := Grows) (PortalCall.verb P) Grows.refl
    (fun _ _ _ => Grows.trans) grows_exec (verb_owns P) hcalls ms
  have hnames := Pool.play_guarded (M := portalMachine) (G := Grows) (PortalCall.verb P) Grows.refl
    (fun _ _ _ => Grows.trans) grows_exec (verb_names P) hcalls ms
  exact Pool.admits_of (PortalCall.verb P) (I := fun _ => True) (fun _ _ _ _ => trivial)
    (fun R m h _ x hx => ⟨h.1 x hx, h.2 x hx⟩) trivial (howns.and _ hnames)

theorem run_retold (P : Portal) {pool : PortalPool} (hcalls : pool.calls = []) (hsound : pool.world.db.Sound)
    (ms : List PortalMove) : (pool.play (PortalCall.verb P) ms).world.db.Sound ∧
      ∃ cs, Pool.Retold portalMachine (Registry.model Uuid String Uuid Uuid) (fun w => w.db.registry) Causes
        pool.world (pool.play (PortalCall.verb P) ms) cs :=
  Pool.play_refines (PortalCall.verb P) portal_refines hsound (verbs_ruled P hcalls ms)

theorem lawful_empty : Db.empty.registry.Lawful where
  apart _ _ _ _ _ h := by cases h
  owned _ _ _ h := by cases h
  followed _ _ _ h := by cases h
  unforked _ _ _ _ _ h := by cases h
  credited _ _ _ h := by cases h
  admittedOnce _ _ _ _ _ h := by cases h

theorem sound_empty : Db.empty.Sound := ⟨fun _ hu => absurd hu List.not_mem_nil, lawful_empty⟩

namespace Probe

/-- An invitation is minted and withdrawn by address. -/
def withdrawn : List PortalMove :=
  .start (.request (.mintInvite email none 14)) :: List.replicate 5 (.step 0 { env with uuid := uuid 1 }) ++
    .start (.request (.revokePendingForEmail email "closed" "officer")) :: List.replicate 2 (.step 1 env)

end Probe

end BackbonePortal
