import BackbonePortal.Ensures
import BackbonePortal.Footprint

/-!
# Invitations are one-shot

The conditional UPDATE of the redemption transaction settles a pending row
only, and inserts the principal it names with the address of the row. What the
other writers settle in between, it finds settled.
-/

namespace BackbonePortal

open Proc Tables

structure InviteLaw (db : Db) : Prop where
  settled : ∀ v ∈ db.invites.rows, v.status = .redeemed ↔ v.redeemedBy.isSome
  principal : ∀ v ∈ db.invites.rows, ∀ user, v.redeemedBy = some user →
    ∃ u, db.users.get user = some u ∧ u.email = v.recipientEmail

section
variable {db db' : Db}

theorem InviteLaw.empty (h : db.invites = .empty) : InviteLaw db where
  settled v hv := by rw [h] at hv; cases hv
  principal v hv := by rw [h] at hv; cases hv

theorem InviteLaw.frame (h : InviteLaw db) (he : Evolves db db') (hi : db'.invites = db.invites) :
    InviteLaw db' where
  settled v hv := h.settled v (hi ▸ hv)
  principal v hv user hu := by
    obtain ⟨u, hg, hm⟩ := h.principal v (hi ▸ hv) user hu
    obtain ⟨u', hg', hm', -⟩ := he.users.get hg
    exact ⟨u', hg', hm'.trans hm⟩

theorem InviteLaw.update (h : InviteLaw db) {p : PortalInvite → Bool} {f : PortalInvite → PortalInvite}
    {hk : ∀ v, inviteSchema.key (f v) = inviteSchema.key v}
    {hi : ∀ v, inviteSchema.idx (f v) = inviteSchema.idx v}
    {rs : List PortalInvite} {invites : Table inviteSchema}
    (hu : db.invites.update p f hk hi = .ok (rs, invites))
    (hf : ∀ v, p v = true → v.status = .pending ∧ (f v).status ≠ .redeemed ∧ (f v).redeemedBy = v.redeemedBy) :
    InviteLaw { db with invites } := by
  have hrows := (Table.update_eq_ok hu).2
  -- a pending row has not been redeemed by anybody
  have unset : ∀ v ∈ db.invites.rows, p v = true → v.redeemedBy = none := by
    intro v hv hp
    have := h.settled v hv
    rw [(hf v hp).1] at this
    simpa using this
  refine ⟨fun w hw => ?_, fun w hw user hu => ?_⟩
  all_goals
    rw [show ({ db with invites } : Db).invites = invites from rfl, hrows] at hw
    obtain ⟨v, hv, rfl⟩ := List.mem_map.mp hw
  · split
    next hp => simp [(hf v hp).2.1, (hf v hp).2.2, unset v hv hp]
    next => exact h.settled v hv
  · split at hu
    next hp => rw [(hf v hp).2.2, unset v hv hp] at hu; cases hu
    next hp => rw [if_neg hp]; exact h.principal v hv user hu

theorem InviteLaw.insert (h : InviteLaw db) {v : PortalInvite} {invites : Table inviteSchema}
    (hi : db.invites.insert v = .ok invites) (hs : v.status = .pending) (hr : v.redeemedBy = none) :
    InviteLaw { db with invites } := by
  have hrows := (Table.insert_eq_ok.mp hi).2
  refine ⟨fun w hw => ?_, fun w hw user hu => ?_⟩
  all_goals
    rw [show ({ db with invites } : Db).invites = invites from rfl, hrows] at hw
    rcases List.mem_append.mp hw with hw | hw
  · exact h.settled w hw
  · cases List.mem_singleton.mp hw
    simp [hs, hr]
  · exact h.principal w hw user hu
  · cases List.mem_singleton.mp hw
    rw [hr] at hu; cases hu

theorem InviteLaw.redeem (h : InviteLaw db) {id user : Uuid} {email : String} {now : Instant}
    {settled : Table inviteSchema} {v : PortalInvite} (hv : v ∈ db.invites.rows) (hid : v.id = id)
    (hemail : v.recipientEmail = email)
    (hu : db.invites.update (fun v => v.id = id && v.status = .pending) (·.redeem user now) (fun _ => rfl)
      (fun _ => rfl) = .ok ([v.redeem user now], settled))
    (hi : { db with invites := settled }.insertUser (.fresh user email now) = .ok db') : InviteLaw db' := by
  obtain ⟨users, hin, rfl⟩ := Db.insertUser_ok hi
  have hrows := (Table.update_eq_ok hu).2
  have hself := (Table.insert_get_self hin).2
  have honly : ∀ r ∈ db.invites.rows, (r.id = id && r.status = .pending) = true → r = v := fun r hr hp =>
    db.invites.key_inj hr hv ((of_decide_eq_true (Bool.and_eq_true_iff.mp hp).1).trans hid.symm)
  refine ⟨fun w hw => ?_, fun w hw k hk => ?_⟩
  all_goals
    rw [show ({ db with invites := settled, users } : Db).invites = settled from rfl, hrows] at hw
    obtain ⟨r, hr, rfl⟩ := List.mem_map.mp hw
  · split
    · exact ⟨fun _ => rfl, fun _ => rfl⟩
    · exact h.settled r hr
  · split at hk
    next hp =>
      cases hk
      rw [if_pos hp, honly r hr hp]
      exact ⟨_, hself, hemail.symm⟩
    next hp =>
      rw [if_neg hp]
      obtain ⟨u, hg, hm⟩ := h.principal r hr k hk
      obtain ⟨u', hg', hm', -⟩ := (Table.insert_follows UserKeeps.refl hin).get hg
      exact ⟨u', hg', hm'.trans hm⟩

end

/-! ## The statements keep the law -/

/-- The redemption transaction inserts the principal under the address of the row. -/
def NamesRecipient : Act → World → Prop
  | .sql (.redeemInvite id _ email), w => ∃ v, w.db.invites.get id = some v ∧ v.recipientEmail = email
  | _, _ => True

theorem exec_inviteLaw (q : Stmt) {now : Instant} {scan : Nat} {w : World} {db' : Db} {r : q.Res}
    (hlaw : InviteLaw w.db) (hnames : NamesRecipient (.sql q) w) (h : q.exec now scan w.db = .ok (r, db')) :
    InviteLaw db' := by
  cases q with
  | insertInvite id email nonce expires grantedBy =>
    obtain ⟨invites, hi, rfl⟩ := exec_insertInvite h
    exact hlaw.insert hi rfl rfl
  | redeemInvite id user email =>
    rcases exec_redeemInvite h with ⟨-, rfl⟩ | ⟨settled, v, -, hv, hid, -, hu, hi⟩
    · exact hlaw
    · obtain ⟨v', hv', he⟩ := hnames
      have hvv : v' = v := w.db.invites.key_inj (Table.get_eq_some.mp hv').1 hv
        ((Table.get_eq_some.mp hv').2.trans hid.symm)
      exact hlaw.redeem hv hid (hvv ▸ he) hu hi
  | revokeInvite id reason =>
    obtain ⟨invites, hu, -, rfl⟩ := Db.updateInvites_ok h
    refine hlaw.update hu fun v hv => ⟨?_, by simp [PortalInvite.revoke], rfl⟩
    simp only [Bool.and_eq_true, decide_eq_true_eq] at hv
    exact hv.2
  | revokePending email reason =>
    obtain ⟨invites, hu, -, rfl⟩ := Db.updateInvites_ok h
    refine hlaw.update hu fun v hv => ⟨?_, by simp [PortalInvite.revoke], rfl⟩
    simp only [Bool.and_eq_true, decide_eq_true_eq] at hv
    exact hv.2
  | sweepExpired =>
    obtain ⟨invites, hu, -, rfl⟩ := Db.updateInvites_ok h
    refine hlaw.update hu fun v hv => ⟨?_, by simp [PortalInvite.expire], rfl⟩
    simp only [Bool.and_eq_true, decide_eq_true_eq] at hv
    exact hv.1
  | _ => exact hlaw.frame (exec_evolves _ _ _ _ _ _ h) ((exec_framed _ h).invites (by simp [Stmt.writes]))

theorem act_inviteLaw (a : Act) (i : Env) (w : World) (hlaw : InviteLaw w.db) (hnames : NamesRecipient a w) :
    InviteLaw (a.exec i w).2.db := by
  cases a with
  | sql q =>
    show InviteLaw (q.answer i w.db).2
    cases h : (q.answer i w.db).1 with
    | error e => rw [Stmt.answer_error h]; exact hlaw
    | ok r => exact exec_inviteLaw q hlaw hnames (Stmt.answer_ok h).2
  | _ => exact hlaw

/-! ## What the first read says -/

def ReadAs (id : Uuid) (row : InviteJoin) (w : World) : Prop :=
  ∃ v, w.db.invites.get id = some v ∧ v.recipientEmail = row.recipientEmail ∧ v.tokenNonce = row.nonce ∧
    v.tokenExpiresAt = row.expiresAt

theorem ReadAs.later {id : Uuid} {row : InviteJoin} {w w' : World} (h : ReadAs id row w) (hg : Grows w w') :
    ReadAs id row w' := by
  obtain ⟨v, hv, he, hn, hx⟩ := h
  obtain ⟨v', hv', he', hn', hx', -⟩ := hg.invites.get hv
  exact ⟨v', hv', he'.trans he, hn'.trans hn, hx'.trans hx⟩

theorem inviteById_read {id : Uuid} {row : InviteJoin} {i : Env} {w : World}
    (h : ((Stmt.inviteById id).answer i w.db).1 = .ok (some row)) :
    ReadAs id row (Act.exec (.sql (.inviteById id)) i w).2 := by
  refine ReadAs.later ?_ (grows_exec _ i w)
  obtain ⟨-, hq⟩ := Stmt.answer_ok h
  simp only [Stmt.exec, Except.ok.injEq, Prod.mk.injEq] at hq
  obtain ⟨v, hv, rfl⟩ := Option.map_eq_some_iff.mp hq.1
  exact ⟨v, (Option.filter_eq_some_iff.mp hv).1, rfl, rfl, rfl⟩

/-! ## Every call keeps the law -/

section
variable {P : Portal} {α : Type} {w : World}

def Act.Unredeeming : Act → Prop
  | .sql (.redeemInvite ..) => False
  | _ => True

theorem Act.Plain.unredeeming {a : Act} (h : a.Plain) : a.Unredeeming := by
  cases a with
  | sql q => cases q <;> trivial
  | _ => trivial

theorem Act.Unredeeming.names {a : Act} (h : a.Unredeeming) : NamesRecipient a w := by
  cases a with
  | sql q => cases q <;> trivial
  | _ => trivial

theorem names_trivial {p : Verb α} (ha : p.All Act.Unredeeming) :
    Guarded NamesRecipient (fun _ _ => True) p w :=
  (ensures_trivial p).guarded (fun _ _ h => h.names) ha

theorem redeem_names (link email : String) :
    Guarded NamesRecipient (fun _ _ => True) (P.redeem link email) w := by
  have hun : ∀ a, Act.Basic a → Act.Unredeeming a := fun _ h => h.common.plain.unredeeming
  unfold Portal.redeem
  dsimp only
  split
  · exact fun _ _ => trivial
  apply guarded_query (fun _ _ => trivial) (fun _ _ _ => trivial)
  intro w₁ h₁ i₁ row hrow
  cases row with
  | none => exact fun _ _ => trivial
  | some row =>
    have hread := inviteById_read hrow
    dsimp only
    split
    · exact fun _ _ => trivial
    apply guarded_step (fun _ _ => trivial)
    intro now w₂ h₂
    split
    · exact fun _ _ => trivial
    apply guarded_step (fun _ _ => trivial)
    intro user w₃ h₃
    refine guarded_query (fun w₄ h₄ => ?_) (fun _ _ _ => trivial) fun _ _ _ redeemed _ => names_trivial ?_
    · obtain ⟨v, hv, he, -⟩ := ((hread.later h₂).later h₃).later h₄
      exact ⟨v, hv, he⟩
    · cases redeemed with
      | false => trivial
      | true =>
        exact .bind (audit_all (basic_enters hun) (by simp)) fun _ =>
          .bind (mintBearer_all P (fun a h => hun a h.basic) _ _) fun _ => trivial

theorem redeemInviteRoute_names (headers : Headers) (body : Body RedeemInviteRequest) :
    Guarded NamesRecipient (fun _ _ => True) (P.redeemInviteRoute headers body) w := by
  have hun : ∀ a, Act.Basic a → Act.Unredeeming a := fun _ h => h.common.plain.unredeeming
  cases body with
  | error e => exact fun _ _ => trivial
  | ok b =>
    refine guarded_answered (redeem_names _ _) fun e w => names_trivial ?_
    split
    · exact .bind (registerNow_all (basic_enters hun) _) fun _ =>
        .bind (registerNow_all (basic_enters hun) _) fun _ => trivial
    · trivial

theorem serve_names (t : Request) : Guarded NamesRecipient (fun _ _ => True) (P.serve t) w := by
  have hun : ∀ a, Act.Basic a → Act.Unredeeming a := fun _ h => h.common.plain.unredeeming
  by_cases hf : t.Fenced
  · cases t with
    | rotateBearer link ttl =>
      exact names_trivial (.bind (rotateBearer_all P hun (fun _ _ _ _ _ => trivial) link ttl) fun _ => trivial)
    | redeem link email =>
      exact guarded_bind (redeem_names link email) (fun _ _ _ _ _ => trivial) fun _ _ _ => trivial
    | route r =>
      refine guarded_bind (R := fun _ _ => True) ?_ (fun _ _ _ _ _ => trivial) fun _ _ _ => trivial
      cases r with
      | redeemInvite headers body => exact redeemInviteRoute_names headers body
      | login headers body => exact names_trivial (loginRoute_all P hun headers body)
      | signup headers body => exact names_trivial (signupRoute_all P hun (fun _ _ => trivial) headers body)
      | rotate headers body =>
        exact names_trivial (rotateRoute_all P hun (fun _ _ _ _ _ => trivial) headers body)
    | _ => exact hf.elim
  · exact names_trivial ((serve_plain P hf).mono fun _ => Act.Plain.unredeeming)

end

/-! ## One redemption an invitation -/

def Redeems (id : Uuid) : Event portalSig → Prop
  | ⟨.sql (.redeemInvite k _ _), r⟩ => k = id ∧ r = .ok true
  | _ => False

def Redeemed (id : Uuid) (w : World) : Prop := ∃ v, w.db.invites.get id = some v ∧ v.status = .redeemed

def Request.RedeemsInvite (id : Uuid) : Request → Prop
  | .redeem link _ => ∃ parts, parseCapability link = some parts ∧ parts.id = id
  | _ => False

theorem Redeemed.later {id : Uuid} {w w' : World} (h : Redeemed id w) (hg : Grows w w') : Redeemed id w' := by
  obtain ⟨v, hv, hs⟩ := h
  obtain ⟨v', hv', hk⟩ := hg.invites.get hv
  exact ⟨v', hv', (hk.2.2.2.2 (by simp [hs])).1.trans hs⟩

theorem redeems_fires {id : Uuid} (a : Act) (i : Env) (w : World) (h : Redeems id ⟨a, (a.exec i w).1⟩) :
    ¬Redeemed id w ∧ Redeemed id (a.exec i w).2 := by
  cases a with
  | sql q =>
    cases q with
    | redeemInvite k user email =>
      obtain ⟨rfl, hr⟩ := h
      obtain ⟨-, hq⟩ := Stmt.answer_ok hr
      rcases exec_redeemInvite hq with ⟨hb, -⟩ | ⟨settled, v, -, hv, rfl, hpend, hu, hi⟩
      · cases hb
      have hget : w.db.invites.get v.id = some v := Table.get_key hv
      refine ⟨?_, ?_⟩
      · rintro ⟨v', hv', hs⟩
        rw [hget] at hv'; cases hv'
        rw [hpend] at hs; cases hs
      · have hu' := Table.update_get hu v.id
        rw [hget, Option.map_some, if_pos (by simp [hpend])] at hu'
        obtain ⟨v', hv', hk⟩ := (insertUser_evolves hi).invites.get hu'
        exact ⟨v', hv', by rw [(hk.2.2.2.2 (by simp [PortalInvite.redeem])).1]; simp [PortalInvite.redeem]⟩
    | _ => exact h.elim
  | _ => exact h.elim

section
variable {P : Portal}

theorem redeem_needs {id : Uuid} {t : Request} (ht : t.RedeemsInvite id) : (P.serve t).Needs (Redeems id) := by
  cases t with
  | redeem link email =>
    obtain ⟨parts, hp, rfl⟩ := ht
    apply Prog.Needs.bind_left
    simp only [Portal.redeem, hp]
    apply Prog.Needs.bind_right
    intro row
    split
    · trivial
    split
    · trivial
    apply Prog.Needs.bind_right
    intro now
    split
    · trivial
    refine Prog.Needs.bind_right fun user => fun r => ?_
    cases r with
    | error e => exact .inr trivial
    | ok b =>
      cases b with
      | false => exact .inr trivial
      | true => exact .inl ⟨rfl, rfl⟩
  | _ => exact ht.elim

/-- A redemption that succeeded first read the invitation, found it to agree
with what was presented, and then found its expiry not passed. -/
def ChecksFirst (P : Portal) (t : Request) (evs : List (Event portalSig)) (o : Except Halt Reply) : Prop :=
  ∀ link email, t = .redeem link email → ∀ r, o = .ok r →
    ∃ parts row now rest, parseCapability link = some parts ∧
      evs = ⟨.sql (.inviteById parts.id), .ok (some row)⟩ :: ⟨.now, now⟩ :: rest ∧
      P.inviteAgrees parts (P.normalizeEmail email) row = true ∧ now ≤ row.expiresAt

theorem serve_checksFirst (t : Request) : (P.serve t).Paths (ChecksFirst P t) := by
  cases t with
  | redeem link email =>
    show ((P.redeem link email).bind _).Paths _
    unfold Portal.redeem
    dsimp only
    split
    · exact fun _ _ _ _ h => nomatch h
    next parts hparts =>
      intro row
      cases row with
      | error e => exact fun _ _ _ _ h => nomatch h
      | ok row =>
        cases row with
        | none => exact fun _ _ _ _ h => nomatch h
        | some row =>
          simp only [Prog.bind_ret]
          split
          · exact fun _ _ _ _ h => nomatch h
          next hagree =>
            intro now
            simp only [Prog.bind_ret]
            split
            · exact fun _ _ _ _ h => nomatch h
            next hexp =>
              refine Prog.paths_of_forall (fun rest o link' email' ht r _ => ?_) _
              cases ht
              exact ⟨parts, row, now, rest, hparts, rfl, by simpa using hagree, Int.not_lt.mp hexp⟩
  | _ => exact Prog.paths_of_forall (fun _ _ _ _ h => nomatch h) _

end

def Told : Event portalSig → World → Prop
  | ⟨.sql (.inviteById id), .ok (some row)⟩, w => ReadAs id row w
  | _, _ => True

theorem told_given (a : Act) (i : Env) (w : World) : Told ⟨a, (a.exec i w).1⟩ (a.exec i w).2 := by
  cases a with
  | sql q =>
    cases q with
    | inviteById id =>
      cases h : ((Stmt.inviteById id).answer i w.db).1 with
      | error e => rw [show (Act.exec (.sql (.inviteById id)) i w).1 = _ from h]; trivial
      | ok row =>
        rw [show (Act.exec (.sql (.inviteById id)) i w).1 = _ from h]
        cases row with
        | none => trivial
        | some row => exact inviteById_read h
    | _ => trivial
  | _ => trivial

theorem Told.later (ev : Event portalSig) {w w' : World} (h : Told ev w) (hg : Grows w w') : Told ev w' := by
  unfold Told at h ⊢
  split
  · exact ReadAs.later h hg
  · trivial

/-- **Invitations are one-shot and terminal.** -/
theorem invitations_are_one_shot (P : Portal) (w : World) (hw : w.db.invites = .empty)
    (ms : List (Move portalMachine Request)) :
    let pool := (⟨w, []⟩ : Pool portalMachine Halt Reply Request).play P.serve ms
    let db := pool.world.db
    (∀ v ∈ db.invites.rows,
      (∀ ns, ∃ v', (pool.play P.serve ns).world.db.invites.get v.id = some v' ∧
        v'.recipientEmail = v.recipientEmail ∧
        (v.status ≠ .pending → v'.status = v.status ∧ v'.redeemedBy = v.redeemedBy)) ∧
      (v.status = .redeemed → ∃ user, v.redeemedBy = some user ∧
        ∃! u, u ∈ db.users.rows ∧ u.id = user ∧ u.email = v.recipientEmail) ∧
      (v.status = .revoked ∨ v.status = .expired → v.redeemedBy = none ∧
        ∀ ns (j : Nat) c, (pool.play P.serve ns).calls[j]? = some c → ¬c.Did (Redeems v.id))) ∧
    (∀ id (j j' : Nat) c c' r r', pool.calls[j]? = some c → pool.calls[j']? = some c' →
      c.tag.RedeemsInvite id → c'.tag.RedeemsInvite id → c.outcome = some (.ok r) → c'.outcome = some (.ok r') →
      j = j') ∧
    ∀ (j : Nat) c link email r, pool.calls[j]? = some c → c.tag = .redeem link email →
      c.outcome = some (.ok r) →
      ∃ parts v, parseCapability link = some parts ∧ db.invites.get parts.id = some v ∧
        P.normalizeEmail email = v.recipientEmail ∧ parts.nonce = v.tokenNonce ∧
        parts.exp = v.tokenExpiresAt.timestamp ∧
        P.verifyInviteMac v.id v.tokenNonce v.recipientEmail v.tokenExpiresAt.timestamp parts.mac = true ∧
        ∃ row now rest, c.past = ⟨.sql (.inviteById parts.id), row⟩ :: ⟨.now, now⟩ :: rest ∧
          now ≤ v.tokenExpiresAt := by
  intro pool db
  obtain ⟨-, hlaw, -⟩ := Pool.guards_play (M := portalMachine) (G := Grows) P.serve (fun w => InviteLaw w.db)
    ⟨w, []⟩ (fun _ _ _ _ => True) Grows.refl (fun _ _ _ => Grows.trans)
    (fun a i w hl hp => ⟨grows_exec a i w, act_inviteLaw a i w hl hp⟩) (fun _ t _ _ _ => serve_names t)
    (InviteLaw.empty hw)
    (fun j c hc => by simp at hc) ms
  have grows : ∀ ns, Grows pool.world (pool.play P.serve ns).world := fun ns =>
    Pool.play_world (M := portalMachine) P.serve (I := Grows pool.world)
      (fun a i w h => h.trans (grows_exec a i w)) (Grows.refl _) ns
  have once := fun id ms => Pool.play_once (M := portalMachine) P.serve (@redeems_fires id)
    (fun a i w h => h.later (grows_exec a i w)) ⟨w, []⟩ rfl ms
  refine ⟨fun v hv => ⟨fun ns => ?_, fun hs => ?_, fun hs => ⟨?_, fun ns j c hc hdid => ?_⟩⟩, ?_, ?_⟩
  · obtain ⟨v', hv', he, -, -, -, hk⟩ := (grows ns).invites.get (Table.get_key hv)
    exact ⟨v', hv', he, hk⟩
  · obtain ⟨user, hu⟩ := Option.isSome_iff_exists.mp ((hlaw.settled v hv).mp hs)
    obtain ⟨u, hg, hm⟩ := hlaw.principal v hv user hu
    obtain ⟨hmem, hid⟩ := Table.get_eq_some.mp hg
    exact ⟨user, hu, u, ⟨hmem, hid, hm⟩, fun u' h => db.users.key_inj h.1 hmem (h.2.1.trans hid.symm)⟩
  · have := hlaw.settled v hv
    rcases hs with hs | hs <;> rw [hs] at this <;> simpa using this
  · -- a call that redeemed it would have left it redeemed
    rw [← Pool.play_append] at hc
    obtain ⟨v', hv', hs'⟩ := (once v.id (ms ++ ns)).1 j c hc hdid
    rw [Pool.play_append] at hv'
    obtain ⟨v'', hv'', -, -, -, -, hk⟩ := (grows ns).invites.get (Table.get_key hv)
    rw [show (Pool.play P.serve _ ns).world.db.invites.get v.id = some v'' from hv''] at hv'
    cases hv'
    rcases hs with hs | hs <;> rw [(hk (by simp [hs])).1, hs] at hs' <;> cases hs'
  · intro id j j' c c' r r' hc hc' ht ht' ho ho'
    have hdid := Pool.play_needs (M := portalMachine) P.serve (T := Request.RedeemsInvite id)
      (fun t => redeem_needs) ⟨w, []⟩ rfl ms
    exact (once id ms).2 j j' c c' hc hc' (hdid j c r hc ht ho) (hdid j' c' r' hc' ht' ho')
  · intro j c link email r hc ht ho
    obtain ⟨parts, row, now, rest, hp, hpast, hagree, hexp⟩ :=
      Pool.play_paths (M := portalMachine) P.serve serve_checksFirst ⟨w, []⟩ rfl ms j
        c _ hc ho link email ht r rfl
    have told := Pool.play_past (M := portalMachine) P.serve told_given
      (fun ev a i w h => h.later ev (grows_exec a i w)) ⟨w, []⟩ rfl ms j c hc
    rw [hpast] at told
    obtain ⟨v, hv, he, hn, hx⟩ : ReadAs parts.id row pool.world := told _ (List.mem_cons_self ..)
    simp only [Portal.inviteAgrees, Bool.and_eq_true, decide_eq_true_eq, and_assoc] at hagree
    obtain ⟨hmac, hnonce, hexpires, hpresenting, -⟩ := hagree
    have hid : v.id = parts.id := (Table.get_eq_some.mp hv).2
    refine ⟨parts, v, hp, hv, he ▸ hpresenting, hn ▸ hnonce, hx ▸ hexpires, ?_, _, now, rest, hpast, hx ▸ hexp⟩
    rw [hid, hn, he, hx]
    exact hmac

def Probe.oneShot : List (Move portalMachine Request) :=
  let first : Env := { Probe.env with uuid := Probe.uuid 1 }
  let second : Env := { Probe.env with uuid := Probe.uuid 3 }
  [.start (.mintInvite Probe.email none 14)] ++ List.replicate 5 (.step 0 first) ++
    [.start (.redeem Probe.inviteLink Probe.email), .start (.redeem Probe.inviteLink Probe.email)] ++
    [.step 1 Probe.env, .step 2 Probe.env] ++ List.replicate 4 (.step 1 Probe.env) ++
    List.replicate 5 (.step 1 second) ++ List.replicate 3 (.step 2 Probe.env)

theorem invitations_are_one_shot_probe :
    let pool := (⟨Probe.world Db.empty, []⟩ : Pool portalMachine Halt Reply Request).play Probe.portal.serve
      Probe.oneShot
    (pool.calls.map fun c => c.outcome.map Except.toBool) = [some true, some true, some false] ∧
    ∀ v ∈ pool.world.db.invites.rows, v.status = .redeemed → ∃ user, v.redeemedBy = some user ∧
      ∃! u, u ∈ pool.world.db.users.rows ∧ u.id = user ∧ u.email = v.recipientEmail := by
  refine ⟨?_, fun v hv =>
    ((invitations_are_one_shot Probe.portal (Probe.world Db.empty) rfl Probe.oneShot).1 v hv).2.1⟩
  rw [Probe.oneShot.eq_1]
  simp -implicitDefEqProofs only [Pool.play_append, Pool.play_cons, Pool.next_start]
  rw [serve_redeem, Portal.redeem.eq_1, Probe.parse_inviteLink]
  decide +kernel

end BackbonePortal
