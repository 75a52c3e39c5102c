import BackbonePortal.Ensures

/-!
# What a verification establishes

`verify_bearer` reads the bearer and its principal, checks the MAC over the
stored fields, and reads the principal's status again. Its specification holds
in any interleaving.
-/

namespace BackbonePortal

open Proc Tables

/-! ## The revoked principal -/

/-- A live principal under a revocation. -/
def Revoked (user : Uuid) (email : String) (db : Db) : Prop :=
  ∃ u, db.users.get user = some u ∧ u.status = .revoked ∧ u.live = true ∧ u.email = email

def BearerOf (link : String) (user : Uuid) (db : Db) : Prop :=
  ∃ parts t, parseCapability link = some parts ∧ db.tokens.get parts.id = some t ∧ t.userId = user

section
variable {user : Uuid} {email link : String} {db db' : Db}

theorem Revoked.later (h : Revoked user email db) (he : Evolves db db') : Revoked user email db' := by
  obtain ⟨u, hu, hs, hl, hm⟩ := h
  obtain ⟨v, hv, hm', hl', -, hr⟩ := he.users.get hu
  exact ⟨v, hv, (hr hs).1, hl'.trans hl, hm'.trans hm⟩

theorem BearerOf.later (h : BearerOf link user db) (he : Evolves db db') : BearerOf link user db' := by
  obtain ⟨parts, t, hp, ht, hu⟩ := h
  obtain ⟨s, hs, hus, -⟩ := he.tokens.get ht
  exact ⟨parts, s, hp, hs, hus.trans hu⟩

theorem BearerOf.unique {user' : Uuid} (h : BearerOf link user db) (h' : BearerOf link user' db) :
    user = user' := by
  obtain ⟨parts, t, hp, ht, rfl⟩ := h
  obtain ⟨parts', t', hp', ht', rfl⟩ := h'
  rw [hp] at hp'; cases hp'
  rw [ht] at ht'; cases ht'
  rfl

theorem Revoked.principal (h : Revoked user email db) :
    ∃ u, db.principal email = some u ∧ u.id = user ∧ u.status = .revoked := by
  obtain ⟨u, hu, hs, hl, hm⟩ := h
  obtain ⟨hmem, hid⟩ := Table.get_eq_some.mp hu
  exact ⟨u, Db.principal_eq_some.mpr ⟨hmem, hl, hm⟩, hid, hs⟩

end

def PortalError.Refusal : PortalError → Prop
  | .db _ | .credentialRefused | .invalidCredentials | .rateLimited _ | .invalidInput _ | .notFound _
  | .bearerSecretNotConfigured => True
  | _ => False

def Refused (o : Except Halt α) : Prop := ∃ e : PortalError, o = .error (.err e) ∧ e.Refusal

theorem Refused.cast {α β : Type} {h : Halt} (hr : Refused (.error h : Except Halt α)) :
    Refused (.error h : Except Halt β) := by
  obtain ⟨e, he, hf⟩ := hr
  cases he
  exact ⟨e, rfl, hf⟩

/-! ## What the reads answer -/

section
variable {i : Env} {db : Db}

theorem bearerById_some {id : Uuid} {row : BearerJoin}
    (h : ((Stmt.bearerById id).answer i db).1 = .ok (some row)) :
    ((Stmt.bearerById id).answer i db).2 = db ∧ ∃ t, db.tokens.get id = some t ∧ t.userId = row.userId := by
  obtain ⟨-, hq⟩ := Stmt.answer_ok h
  simp only [Stmt.exec, Except.ok.injEq, Prod.mk.injEq] at hq
  obtain ⟨hrow, hdb⟩ := hq
  refine ⟨hdb.symm, ?_⟩
  obtain ⟨t, ht, hrow⟩ := Option.bind_eq_some_iff.mp hrow
  obtain ⟨u, hu, hrow⟩ := Option.bind_eq_some_iff.mp hrow
  cases hrow
  obtain ⟨ht, -⟩ := Option.filter_eq_some_iff.mp ht
  obtain ⟨hu, -⟩ := Option.filter_eq_some_iff.mp hu
  exact ⟨t, ht, (Table.get_eq_some.mp hu).2.symm⟩

theorem userStatus_revoked {user : Uuid} {email : String} {r : Option PortalUserStatus}
    (hr : Revoked user email db) (h : ((Stmt.userStatus user).answer i db).1 = .ok r) : r = some .revoked := by
  obtain ⟨-, hq⟩ := Stmt.answer_ok h
  obtain ⟨u, hu, hs, hl, -⟩ := hr
  simp only [Stmt.exec, hu, Option.filter_some, hl, if_true, Option.map_some, hs, Except.ok.injEq,
    Prod.mk.injEq] at hq
  exact hq.1.symm

theorem liveUserByEmail_revoked {user : Uuid} {email : String} {r : Option (Uuid × PortalUserStatus)}
    (hr : Revoked user email db) (h : ((Stmt.liveUserByEmail email).answer i db).1 = .ok r) :
    r = some (user, .revoked) := by
  obtain ⟨-, hq⟩ := Stmt.answer_ok h
  obtain ⟨u, hu, hid, hs⟩ := hr.principal
  simp only [Stmt.exec, hu, Option.map_some, hid, hs, Except.ok.injEq, Prod.mk.injEq] at hq
  exact hq.1.symm

theorem viewRow_revoked {user : Uuid} {email : String} {r : Option PortalUser} (hr : Revoked user email db)
    (h : ((Stmt.viewRow user).answer i db).1 = .ok r) : r = none := by
  obtain ⟨-, hq⟩ := Stmt.answer_ok h
  obtain ⟨u, hu, hs, -, -⟩ := hr
  simp only [Stmt.exec, hu, Option.filter_some, hs, reduceCtorEq, decide_false, Bool.false_and,
    Bool.false_eq_true, if_false, Except.ok.injEq, Prod.mk.injEq] at hq
  exact hq.1.symm

theorem updateDetails_revoked {user : Uuid} {email : String} {sets : List (DetailColumn × String)} {n : Nat}
    (hr : Revoked user email db) (h : ((Stmt.updateDetails user sets).answer i db).1 = .ok n) : n = 0 := by
  obtain ⟨-, hq⟩ := Stmt.answer_ok h
  obtain ⟨u, hu, hs, -, -⟩ := hr
  obtain ⟨users, -, rfl, -⟩ := Db.updateUsers_ok hq
  have hf : (db.users.rows.filter fun u => u.id = user && u.status = .active && u.live) = [] := by
    simp only [Bool.and_assoc]
    rw [db.users_with_id, hu]
    simp [Option.filter_some, hs]
  simp only [hf, List.map_nil, List.length_nil]

end

/-! ## The verification -/

section
variable {P : Portal} {α : Type} {w : World}

theorem Portal.secret_error {e : PortalError} (h : P.secret = .error e) : e = .bearerSecretNotConfigured := by
  unfold Portal.secret at h
  split at h
  · cases h; rfl
  · cases h

theorem refused_db (e : SqlError) : Refused (.error (.err (.db e)) : Except Halt α) := ⟨_, rfl, trivial⟩

theorem ensures_refused {I : Except Halt α → World → Prop} {e : PortalError} (he : e.Refusal) :
    Ensures (fun o w => Refused o ∨ I o w) (refuse e) w := ensures_refuse fun _ _ => .inl ⟨e, rfl, he⟩

/-- What a verification started in `db₀` has established when it succeeds. -/
def Verified (link : String) (db₀ : Db) (o : Except Halt PortalPrincipal) (w : World) : Prop :=
  ∃ p, o = .ok p ∧ BearerOf link p.userId w.db ∧ ∀ email, ¬Revoked p.userId email db₀

/-- **Verification.** Whatever runs beside it, `verify_bearer` refuses or names
the owner of the presented bearer, who was not revoked when it started: the
second status read sees a revocation whatever the first one joined. -/
theorem verifyBearer_ensures (P : Portal) (link : String) (w : World) :
    Ensures (fun o w' => Refused o ∨ Verified link w.db o w') (P.verifyBearer link) w := by
  unfold Portal.verifyBearer
  cases hs : P.secret with
  | error e =>
    cases Portal.secret_error hs
    exact ensures_refused trivial
  | ok secret =>
    simp only [Prog.bind_eq, ofExcept_ok, Prog.bind_ret]
    cases hp : parseCapability link with
    | none => exact ensures_refused trivial
    | some parts =>
      apply ensures_query (fun e _ _ => .inl (refused_db e))
      intro w₁ h₁ i row hrow
      cases row with
      | none => exact ensures_refused trivial
      | some row =>
        obtain ⟨hdb, t, ht, hu⟩ := bearerById_some hrow
        have hg₂ : Grows w (Act.exec (.sql (.bearerById parts.id)) i w₁).2 := h₁.trans (grows_exec _ i w₁)
        have hb₂ : BearerOf link row.userId (Act.exec (.sql (.bearerById parts.id)) i w₁).2.db :=
          ⟨parts, t, hp, (congrArg (fun d : Db => d.tokens.get parts.id) hdb).trans ht, hu⟩
        generalize (Act.exec (.sql (.bearerById parts.id)) i w₁).2 = w₂ at hg₂ hb₂
        dsimp only
        split
        · exact ensures_refused trivial
        apply ensures_step
        intro now w₃ h₃
        split
        · exact ensures_refused trivial
        split
        · exact ensures_refused trivial
        apply ensures_query (fun e _ _ => .inl (refused_db e))
        intro w₄ h₄ i₄ status hst
        cases status with
        | none => exact ensures_refused trivial
        | some status =>
          dsimp only
          split
          · exact ensures_refused trivial
          next hact =>
            have hlive : ∀ email, ¬Revoked row.userId email w.db := fun email hr =>
              hact fun e => by cases e ▸ userStatus_revoked (((hr.later hg₂).later h₃).later h₄) hst
            refine ensures_step fun _ w₅ h₅ => ensures_ret fun w₆ h₆ => .inr ⟨_, rfl, ?_, hlive⟩
            exact (((hb₂.later h₃).later h₄).later (grows_exec _ i₄ w₄)).later (h₅.trans h₆)

end

end BackbonePortal
