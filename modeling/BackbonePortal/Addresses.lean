import BackbonePortal.Ensures
import BackbonePortal.Footprint
import BackbonePortal.LinkReach
import BackbonePortal.Origins
import Mathlib.Data.List.DropRight

/-!
# Addresses

Every writer stores an address in its comparison form, so the unique index over
the text of live addresses keeps one live principal for each form, and every
signup that returns has found or made that one.
-/

namespace BackbonePortal

open Proc Tables

structure Portal.Normalized (P : Portal) (db : Db) : Prop where
  users : ∀ u ∈ db.users.rows, P.normalizeEmail u.email = u.email
  invites : ∀ v ∈ db.invites.rows, P.normalizeEmail v.recipientEmail = v.recipientEmail

def Portal.StoresNormal (P : Portal) : Act → Prop
  | .sql (.insertSignup _ email) => P.normalizeEmail email = email
  | .sql (.redeemInvite _ _ email) => P.normalizeEmail email = email
  | .sql (.insertInvite _ email _ _ _) => P.normalizeEmail email = email
  | _ => True

section
variable {P : Portal}

theorem Act.Basic.storesNormal {a : Act} (h : a.Basic) : P.StoresNormal a := by
  cases a with
  | sql q => cases q <;> first | exact h.elim | trivial
  | _ => trivial

theorem serve_storesNormal (hidem : ∀ s, P.normalizeEmail (P.normalizeEmail s) = P.normalizeEmail s)
    (t : Request) :
    (P.serve t).All P.StoresNormal :=
  serve_all P (fun _ h => h.storesNormal) (fun _ _ _ _ _ => hidem _) (fun _ _ => hidem _) (fun _ _ => trivial)
    (fun _ _ _ _ _ => trivial) (fun _ _ _ => hidem _) t

theorem normalized_exec {a : Act} (ha : P.StoresNormal a) (i : Env) (w : World) (hw : P.Normalized w.db) :
    P.Normalized (a.exec i w).2.db := by
  cases a with
  | sql q =>
    show P.Normalized (q.answer i w.db).2
    cases hr : (q.answer i w.db).1 with
    | error e =>
      rw [Stmt.answer_error hr]
      exact hw
    | ok r =>
      have hexec := (Stmt.answer_ok hr).2
      constructor
      · intro v hv
        rcases user_origin hexec hv with ⟨u, hu, hstep⟩ | ⟨id, email, rfl, -, rfl | ⟨invite, rfl⟩⟩
        · rw [hstep.email]
          exact hw.users u hu
        · exact ha
        · exact ha
      · intro v hv
        rcases invite_origin hexec hv with ⟨u, hu, hstep⟩ | ⟨id, email, nonce, expires, grantedBy, rfl, -, rfl⟩
        · rw [hstep.keeps.1]
          exact hw.invites u hu
        · exact ha
  | _ => exact hw

/-! ## The principal of an address -/

/-- The id is the live principal of the address. -/
def World.LiveAt (user : Uuid) (email : String) (w : World) : Prop :=
  ∃ u, w.db.users.get user = some u ∧ u.live = true ∧ u.email = email

variable {user user' : Uuid} {email : String} {w w' : World}

theorem World.LiveAt.later (h : w.LiveAt user email) (hw : Grows w w') : w'.LiveAt user email := by
  obtain ⟨u, hu, hl, he⟩ := h
  obtain ⟨v, hv, hkeeps⟩ := hw.users.get hu
  exact ⟨v, hv, hkeeps.2.1.trans hl, hkeeps.1.trans he⟩

theorem World.LiveAt.unique (h : w.LiveAt user email) (h' : w.LiveAt user' email) : user = user' := by
  obtain ⟨u, hu, hl, he⟩ := h
  obtain ⟨v, hv, hl', he'⟩ := h'
  obtain ⟨hmu, rfl⟩ := Table.get_eq_some.mp hu
  obtain ⟨hmv, rfl⟩ := Table.get_eq_some.mp hv
  have indexed : ∀ x : PortalUser, x.live = true → x.email = email → userSchema.idx x = some email := by
    intro x hl he
    simp [userSchema, hl, he]
  rw [w.db.users.idx_inj hmu hmv (indexed u hl he) (indexed v hl' he')]

theorem liveUserByEmail_lives {i : Env} {row : Uuid × PortalUserStatus}
    (h : ((Stmt.liveUserByEmail email).answer i w.db).1 = .ok (some row)) :
    World.LiveAt row.1 email (Act.exec (.sql (.liveUserByEmail email)) i w).2 := by
  have hq := (Stmt.answer_ok h).2
  simp only [Stmt.exec, Except.ok.injEq, Prod.mk.injEq, Option.map_eq_some_iff] at hq
  obtain ⟨⟨u, hu, rfl⟩, hdb⟩ := hq
  obtain ⟨hm, hl, he⟩ := Db.principal_eq_some.mp hu
  refine ⟨u, ?_, hl, he⟩
  show ((Stmt.liveUserByEmail email).answer i w.db).2.users.get u.id = some u
  rw [← hdb]
  exact Table.get_key hm

theorem insertSignup_lives {i : Env} {id : Uuid}
    (h : ((Stmt.insertSignup id email).answer i w.db).1 = .ok (some user)) :
    World.LiveAt user email (Act.exec (.sql (.insertSignup id email)) i w).2 := by
  rcases exec_insertSignup (Stmt.answer_ok h).2 with ⟨users, hi, hid, hdb⟩ | ⟨-, -, hid, -⟩
  · cases hid
    refine ⟨.fresh user email i.now.stored, ?_, rfl, rfl⟩
    show ((Stmt.insertSignup user email).answer i w.db).2.users.get user = _
    rw [hdb]
    exact (Table.insert_get_self hi).2
  · cases hid

/-! ## What a signup returns -/

def Gives (user : Uuid) (o : Except Halt (Uuid × String)) : Prop := ∀ r, o = .ok r → r.1 = user

/-- Every value returned names the live principal of the address. -/
def GivesLive (email : String) (o : Except Halt (Uuid × String)) (w : World) : Prop :=
  ∀ r, o = .ok r → w.LiveAt r.1 email

theorem gives_error (e : Halt) : Gives user (.error e) := nofun

theorem ensures_live {p : Verb (Uuid × String)} (hp : p.Ends (Gives user)) (hlive : w.LiveAt user email) :
    Ensures (GivesLive email) p w := by
  induction p generalizing w with
  | ret r =>
    intro w' hw r' hr
    cases hr
    rw [hp r rfl]
    exact hlive.later hw
  | fail e => exact fun w' _ r hr => nomatch hr
  | act a k ih =>
    exact fun w' hw => ⟨trivial, fun i => ih _ (hp _) ((hlive.later hw).later (grows_exec a i w'))⟩

theorem mint_gives (ttl : Int) {f : String → Verb (Uuid × String)} (hf : ∀ b, (f b).Ends (Gives user)) :
    ((P.mintBearer user ttl).bind f).Ends (Gives user) := Prog.ends_bind_right _ hf gives_error

theorem succeedLogin_gives (idKey ipKey event : String) :
    (P.succeedLogin user idKey ipKey event).Ends (Gives user) := by
  refine Prog.ends_bind_right _ (fun _ => ?_) gives_error
  refine Prog.ends_bind_right _ (fun _ => ?_) gives_error
  refine Prog.ends_bind_right _ (fun _ => mint_gives _ fun bearer => ?_) gives_error
  refine Prog.ends_bind_right _ (fun _ => ?_) gives_error
  rintro r hr
  cases hr
  rfl

theorem fails_live {p : Verb (Uuid × String)} (hp : p.Ends Fails) : Ensures (GivesLive email) p w := by
  induction p generalizing w with
  | ret r =>
    obtain ⟨e, he⟩ := hp
    cases he
  | fail e => exact fun w' _ r hr => nomatch hr
  | act a k ih => exact fun w' hw => ⟨trivial, fun i => ih _ (hp _)⟩

theorem verifyAndMint_live (email presented ip event : String) (w : World) :
    Ensures (GivesLive email) (P.verifyAndMint email presented ip event) w := by
  refine ensures_step fun now w₁ h₁ => ensures_checkKey (fun _ _ _ => nofun) fun w₂ h₂ => ?_
  refine ensures_checkKey (fun _ _ _ => nofun) fun w₃ h₃ =>
    ensures_query (fun _ _ _ => nofun) fun w₄ h₄ i row hrow => ?_
  cases row with
  | none => exact fails_live (refuseLogin_fails _ _ _ _)
  | some row =>
    have hlive := liveUserByEmail_lives hrow
    dsimp only
    split
    · exact fails_live (refuseLogin_fails _ _ _ _)
    apply ensures_step
    intro verdict w₅ h₅
    split
    · exact ensures_live (succeedLogin_gives _ _ _) (hlive.later h₅)
    · exact fails_live (refuseLogin_fails _ _ _ _)
    · exact fails_live (fails_refuse _)
    · exact fails_live (fails_bind _ fun _ => fails_refuse _)

theorem creation_gives : (((audit "signup_created" (some user) none none "recipient" (.object [])).bind fun _ =>
    (P.mintBearer user defaultBearerTtlHours).bind fun bearer => .ret (user, bearer)) :
    Verb (Uuid × String)).Ends
      (Gives user) := by
  refine Prog.ends_bind_right _ (fun _ => mint_gives _ fun bearer => ?_) gives_error
  rintro r hr
  cases hr
  rfl

theorem createPrincipal_live (email : String) (w : World) :
    Ensures (GivesLive email) (P.createPrincipal email) w := by
  refine ensures_step fun id w₁ h₁ => ensures_query (fun _ _ _ => nofun) fun w₂ h₂ i inserted hins => ?_
  cases inserted with
  | some user => exact ensures_live creation_gives (insertSignup_lives hins)
  | none =>
    -- the insert met a conflict: the winner is looked up
    refine ensures_bind (R := fun o w => ∀ user, o = .ok user → w.LiveAt user email) ?_ (fun user w' h => ?_)
      fun e w' _ => nofun
    · apply ensures_query (fun _ _ _ => nofun)
      intro w₃ h₃ i₃ row hrow
      cases row with
      | none => exact ensures_refuse fun _ _ => nofun
      | some row =>
        apply ensures_ret
        intro w' hw user hu
        cases hu
        exact (liveUserByEmail_lives hrow).later hw
    · exact ensures_live creation_gives (h user rfl)

theorem signup_live (raw presented ip : String) (w : World) :
    Ensures (GivesLive (P.normalizeEmail raw)) (P.signup raw presented ip) w := by
  unfold Portal.signup
  dsimp only
  split
  · exact fails_live (fails_refuse _)
  refine ensures_bind (ensures_trivial signupOpen) (fun is_open w₁ _ => ?_) fun _ _ _ => nofun
  cases is_open with
  | false => exact fails_live (fails_bind _ fun _ => fails_refuse _)
  | true =>
    apply ensures_query (fun _ _ _ => nofun)
    intro w₂ h₂ i row hrow
    split
    · split
      · exact fails_live (fails_refuse _)
      · exact verifyAndMint_live _ _ _ _ _
    · refine ensures_bind (ensures_trivial _) (fun _ w₃ _ => ?_) fun _ _ _ => nofun
      refine ensures_bind (ensures_trivial _) (fun _ w₄ _ => ?_) fun _ _ _ => nofun
      apply ensures_step
      intro verdict w₅ h₅
      split
      · exact createPrincipal_live _ _
      · exact fails_live (fails_bind _ fun _ => fails_bind _ fun _ => fails_refuse _)
      · exact fails_live (fails_refuse _)
      · exact fails_live (fails_bind _ fun _ => fails_refuse _)

end

/-! ## The runs -/

/-- A signup that returned gave the live principal of its address. -/
def Request.SignsUp (P : Portal) (t : Request) (o : Except Halt Reply) (w : World) : Prop :=
  ∀ email presented ip user bearer, t = .signup email presented ip → o = .ok (.admitted user bearer) →
    w.LiveAt user (P.normalizeEmail email)

section
variable (P : Portal) {pool : Pool portalMachine Halt Reply Request}

theorem serve_live (t : Request) (w : World) : Ensures (t.SignsUp P) (P.serve t) w := by
  by_cases h : ∃ email presented ip, t = .signup email presented ip
  · obtain ⟨email, presented, ip, rfl⟩ := h
    refine ensures_reply (signup_live email presented ip w) (fun r w₁ h₁ w₂ h₂ => ?_) fun e w₁ _ => nofun
    rintro email' presented' ip' user bearer he ho
    cases he
    cases ho
    exact (h₁ r rfl).later h₂
  · exact (ensures_trivial _).weaken fun o w _ email presented ip _ _ he => absurd ⟨email, presented, ip, he⟩ h

/-- **One principal per address.** In every interleaving from empty tables:
stored addresses are comparison forms, no two live principals have one form in
common, and the signups of one form that return give one principal. -/
theorem one_principal_per_address (hidem : ∀ s, P.normalizeEmail (P.normalizeEmail s) = P.normalizeEmail s)
    (hcalls : pool.calls = []) (hempty : pool.world.db = Db.empty) (ms : List (Move portalMachine Request)) :
    P.Normalized (pool.play P.serve ms).world.db ∧
    (∀ u ∈ (pool.play P.serve ms).world.db.users.rows, ∀ v ∈ (pool.play P.serve ms).world.db.users.rows,
      u.live = true → v.live = true → P.normalizeEmail u.email = P.normalizeEmail v.email → u = v) ∧
    ∀ (j j' : Nat) (c c' : Call portalSig Halt Reply Request)
      (email email' presented presented' ip ip' : String)
      (user user' : Uuid) (bearer bearer' : String),
      (pool.play P.serve ms).calls[j]? = some c → (pool.play P.serve ms).calls[j']? = some c' →
      c.tag = .signup email presented ip → c'.tag = .signup email' presented' ip' →
      c.outcome = some (.ok (.admitted user bearer)) → c'.outcome = some (.ok (.admitted user' bearer')) →
      P.normalizeEmail email = P.normalizeEmail email' → user = user' := by
  have hnormal : P.Normalized (pool.play P.serve ms).world.db := by
    refine Pool.play_all (M := portalMachine) (I := fun w : World => P.Normalized w.db) P.serve
      (fun a ha i w => normalized_exec ha i w) (serve_storesNormal hidem) hcalls ?_ ms
    rw [hempty]
    exact ⟨fun u hu => (nomatch hu), fun v hv => (nomatch hv)⟩
  refine ⟨hnormal, fun u hu v hv hlu hlv he => ?_, ?_⟩
  · rw [hnormal.users u hu, hnormal.users v hv] at he
    have hindexed : ∀ x : PortalUser, x.live = true → userSchema.idx x = some x.email := fun x hx => if_pos hx
    exact Table.idx_inj _ hu hv (hindexed u hlu) (he ▸ hindexed v hlv)
  · obtain ⟨-, -, hlives⟩ := Pool.guards_play (M := portalMachine) (G := Grows) P.serve (fun _ => True) pool
      (fun _ t => t.SignsUp P) Grows.refl (fun _ _ _ => Grows.trans)
      (fun a i w _ _ => ⟨grows_exec a i w, trivial⟩)
      (fun _ t w _ _ => serve_live P t w) trivial (by simp [hcalls]) ms
    intro j j' c c' email email' presented presented' ip ip' user user' bearer bearer' hj hj' ht ht' ho ho' he
    have hlive := hlives j c _ hj ho email presented ip user bearer ht rfl
    have hlive' := hlives j' c' _ hj' ho' email' presented' ip' user' bearer' ht' rfl
    rw [← he] at hlive'
    exact hlive.unique hlive'

end

namespace Probe

def plain : Portal := { portal with toLowercase := fun s => s }

theorem trimBy_trimBy (p : Char → Bool) (s : String) : trimBy p (trimBy p s) = trimBy p s := by
  have hfront : ((s.toList.dropWhile p).rdropWhile p).dropWhile p = (s.toList.dropWhile p).rdropWhile p := by
    rw [List.dropWhile_eq_self_iff]
    intro hpos
    have hpre : (s.toList.dropWhile p).rdropWhile p <+: s.toList.dropWhile p := List.rdropWhile_prefix _ _
    rw [hpre.getElem hpos]
    exact List.dropWhile_get_zero_not _ _ (Nat.lt_of_lt_of_le hpos hpre.length_le)
  have hrdrop : ∀ l : List Char, (l.reverse.dropWhile p).reverse = l.rdropWhile p := fun _ => rfl
  simp only [trimBy, hrdrop, String.toList_ofList, hfront, List.rdropWhile_idempotent p (s.toList.dropWhile p)]

theorem plain_idempotent (s : String) :
    plain.normalizeEmail (plain.normalizeEmail s) = plain.normalizeEmail s :=
  trimBy_trimBy _ _

def rivals : List (Move portalMachine Request) :=
  alone 0 3 (.setSignupPolicy true none none) env ++ alone 1 7 (.signup email "secret" "10.0.0.1") env ++
    alone 2 7 (.signup (" " ++ email) "secret" "10.0.0.1") env ++ List.replicate 8 (.step 1 env) ++
    List.replicate 9 (.step 2 { env with uuid := uuid 6, nonce := 6 })

end Probe

theorem one_principal_per_address_probe :
    Probe.plain.Normalized (Probe.blank.play Probe.plain.serve Probe.rivals).world.db ∧
    (Probe.blank.play Probe.plain.serve Probe.rivals).world.db.users.rows.map (·.email) = [Probe.email] :=
  ⟨(one_principal_per_address Probe.plain Probe.plain_idempotent rfl rfl Probe.rivals).1, by decide +kernel⟩

end BackbonePortal
