import BackbonePortal.Duties
import BackbonePortal.LinkReach
import BackbonePortal.Origins
import BackbonePortal.RotationChain

/-!
# Revocation and the bearers in flight

A revocation flips the principal and sweeps its bearers in two statements, and
a mint reads the principal and inserts the bearer in two others. The flip owes
a sweep; a bearer inserted after the sweep is swept by nobody.
-/

namespace BackbonePortal

open Proc Tables

def Db.NoStray (db : Db) : Prop :=
  ∀ t ∈ db.tokens.rows, t.status = .active → ∀ u ∈ db.users.rows, u.id = t.userId → u.status ≠ .revoked

def Db.Stray (user : Uuid) (db : Db) : Prop :=
  (∃ u ∈ db.users.rows, u.id = user ∧ u.status = .revoked) ∧ ∃ t ∈ db.tokens.rows, t.userId = user ∧
  t.status = .active

theorem Db.noStray_iff {db : Db} : db.NoStray ↔ ∀ user, ¬db.Stray user := by
  constructor
  · rintro h user ⟨⟨u, hu, rfl, hr⟩, t, ht, htu, ha⟩
    exact h t ht ha u hu htu.symm hr
  · intro h t ht ha u hu hut hr
    exact h t.userId ⟨⟨u, hu, hut, hr⟩, t, ht, rfl, ha⟩

def Flips (user : Uuid) : Event portalSig → Prop
  | ⟨.sql (.revokeUser id _), .ok (some _)⟩ => id = user
  | _ => False

def Sweeps (user : Uuid) : Event portalSig → Prop
  | ⟨.sql (.revokeUserTokens id _), .ok _⟩ => id = user
  | _ => False

def Act.mintee : Act → Option Uuid
  | .sql (.insertToken _ user _ _) => some user
  | _ => none

/-- A bearer is inserted for a revoked principal only while the revocation has
yet to sweep. -/
def MintsBeforeSweep (pool : Pool portalMachine Halt Reply Request) (m : Move portalMachine Request) : Prop :=
  ∀ x ∈ pool.performs m, ∀ user ∈ x.1.mintee,
    (∃ u ∈ pool.world.db.users.rows, u.id = user ∧ u.status = .revoked) →
      ∃ c ∈ pool.calls, c.Did (Flips user) ∧ ¬c.Did (Sweeps user)

/-- A failure of the database, or what the bus is told of one. -/
def Halt.Failed : Halt → Prop
  | .err (.db _) => True
  | .event _ _ => True
  | _ => False

/-- The call has returned, and not by a failure of the database. -/
def Finished (c : Call portalSig Halt Reply Request) : Prop :=
  match c.outcome with
  | some (.ok _) => True
  | some (.error e) => ¬e.Failed
  | none => False

/-- Every started call has returned without a failure of the database. -/
def Concluded (pool : Pool portalMachine Halt Reply Request) : Prop := ∀ c ∈ pool.calls, Finished c

instance (db : Db) : Decidable db.NoStray :=
  inferInstanceAs (Decidable (∀ t ∈ db.tokens.rows, t.status = .active →
    ∀ u ∈ db.users.rows, u.id = t.userId → u.status ≠ .revoked))

instance (user : Uuid) : DecidablePred (Flips user) := fun ev => by
  unfold Flips
  split <;> exact inferInstance

instance (user : Uuid) : DecidablePred (Sweeps user) := fun ev => by
  unfold Sweeps
  split <;> exact inferInstance

instance (pool : Pool portalMachine Halt Reply Request) (m : Move portalMachine Request) :
    Decidable (MintsBeforeSweep pool m) :=
  inferInstanceAs (Decidable (∀ x ∈ pool.performs m, ∀ user ∈ x.1.mintee,
    (∃ u ∈ pool.world.db.users.rows, u.id = user ∧ u.status = .revoked) →
      ∃ c ∈ pool.calls, (∃ ev ∈ c.past, Flips user ev) ∧ ¬∃ ev ∈ c.past, Sweeps user ev))

instance : DecidablePred Halt.Failed := fun e => by
  unfold Halt.Failed
  split <;> exact inferInstance

instance : DecidablePred Finished := fun c => by
  unfold Finished
  split <;> exact inferInstance

instance (pool : Pool portalMachine Halt Reply Request) : Decidable (Concluded pool) :=
  inferInstanceAs (Decidable (∀ c ∈ pool.calls, Finished c))

/-! ## What the statements leave -/

section
variable {q : Stmt} {now : Instant} {scan : Nat} {db db' : Db} {user : Uuid}

theorem exec_revoked {r : q.Res} (h : q.exec now scan db = .ok (r, db'))
    (hr : ∃ u ∈ db'.users.rows, u.id = user ∧ u.status = .revoked) :
    (∃ u ∈ db.users.rows, u.id = user ∧ u.status = .revoked) ∨ Flips user ⟨.sql q, .ok r⟩ := by
  obtain ⟨v, hv, rfl, hrevoked⟩ := hr
  rcases user_origin h hv with ⟨u, hu, hstep⟩ | ⟨id, email, rfl, -, -⟩
  · rcases hstep.status with hs | ⟨reason, rfl, hne, hl, -⟩
    · exact .inl ⟨u, hu, hstep.id.symm, hs ▸ hrevoked⟩
    · obtain ⟨users, -, hans, -⟩ := Db.updateUsers_ok h
      have hmem : u.revoke reason now ∈
          (db.users.rows.filter fun w => w.id = u.id && w.status ≠ .revoked && w.live).map
          (·.revoke reason now) :=
        List.mem_map_of_mem (List.mem_filter.mpr ⟨hu, by simp [hne, hl]⟩)
      cases hd : ((db.users.rows.filter fun w => w.id = u.id && w.status ≠ .revoked && w.live).map
          (·.revoke reason now)).head? with
      | none => rw [List.head?_eq_none_iff.mp hd] at hmem; cases hmem
      | some x =>
        rw [hans, hd]
        exact .inr hstep.id.symm
  · cases hrevoked

theorem exec_active {r : q.Res} (h : q.exec now scan db = .ok (r, db'))
    (ht : ∃ t ∈ db'.tokens.rows, t.userId = user ∧ t.status = .active) :
    (∃ t ∈ db.tokens.rows, t.userId = user ∧ t.status = .active) ∨ (Act.sql q).mintee = some user ∨
      ∃ old id nonce expires, q = .rotateToken old id user nonce expires := by
  obtain ⟨s, hs, rfl, hactive⟩ := ht
  rcases token_origin h hs with ⟨t, ht, hstep⟩ | ⟨id, user, nonce, expires, rfl, -, rfl | ⟨old, rfl⟩⟩
  · have huser : s.userId = t.userId := hstep.keeps.1
    rcases hstep.status with hst | ⟨-, ⟨_, _, _, _, -, hst, -⟩ | ⟨_, -, hst⟩ | ⟨_, -, hst⟩⟩
    · exact .inl ⟨t, ht, huser.symm, hst ▸ hactive⟩
    · rw [hst] at hactive; cases hactive
    · rw [hst] at hactive; cases hactive
    · rw [hst] at hactive; cases hactive
  · exact .inr (.inl rfl)
  · exact .inr (.inr ⟨old, id, nonce, expires, rfl⟩)

theorem exec_sweeps {r : q.Res} (h : q.exec now scan db = .ok (r, db')) (hs : Sweeps user ⟨.sql q, .ok r⟩) :
    ¬∃ t ∈ db'.tokens.rows, t.userId = user ∧ t.status = .active := by
  cases q with
  | revokeUserTokens id reason =>
    cases hs
    obtain ⟨tokens, hu, -, rfl⟩ := Db.updateTokens_ok h
    rintro ⟨t, ht, htu, hta⟩
    rw [(Table.update_eq_ok hu).2] at ht
    obtain ⟨s, hs, rfl⟩ := List.mem_map.mp ht
    split at hta
    next hp => cases hta
    next hp =>
      rw [if_neg hp] at htu
      exact hp (by simp [htu, hta])
  | _ => exact hs.elim

end

/-! ## The verbs -/

section
variable (P : Portal)

theorem Act.Common.not_flips {a : Act} (h : a.Common) : ∀ r user, ¬Flips user ⟨a, r⟩ := by
  cases a with
  | sql q => cases q <;> first | exact h.elim | exact fun _ _ => not_false
  | _ => exact fun _ _ => not_false

theorem revokeAccess_owes (user : Uuid) (reason actor : String) :
    (revokeAccess user reason actor).Owes (fun _ => True) Flips Sweeps Halt.Failed := by
  have hA : ∀ a, Act.Basic a → ∀ r user, ¬Flips user ⟨a, r⟩ := fun _ h => h.common.not_flips
  intro r _
  cases r with
  | error e => exact ⟨fun _ hx => hx.elim, trivial⟩
  | ok found =>
    cases found with
    | none => exact ⟨fun _ hx => hx.elim, trivial⟩
    | some email =>
      refine ⟨fun x hx answer _ => ?_, .of_all ?_⟩
      · cases answer with
        | ok n => exact .inl hx
        | error e => exact .inr trivial
      · show ((revokeAllBearers user reason actor).bind _).All _
        exact .bind (revokeAllBearers_all (basic_enters hA) _ _ _) fun _ =>
          .bind (all_query (hA _ trivial)) fun _ => trivial

theorem handle_owes (env : Envelope) : (P.handle env).Owes (fun _ => True) Flips Sweeps Halt.Failed := by
  have hA : ∀ a, Act.Basic a → ∀ r user, ¬Flips user ⟨a, r⟩ := fun _ h => h.common.not_flips
  have failed : ∀ e, e.Failed → (P.busError "revocation arm" e).Failed := by
    intro e he
    cases e with
    | err e => trivial
    | event h m => trivial
    | panicked m => exact he.elim
  unfold Portal.handle
  split
  · exact .of_all (onCreated_all P hA env)
  split
  · unfold Portal.onUserGone
    split
    · trivial
    split
    · trivial
    refine .bind (.of_all (busQuery_all P (hA _ trivial))) fun found => ?_
    split
    · trivial
    refine .bind ((revokeAccess_owes _ _ _).mapErr failed) fun flipped => ?_
    split
    · trivial
    · exact .of_all (lifecycleAudit_all P hA _ _ _ _ _)
  · trivial

theorem serve_owes (t : Request) : (P.serve t).Owes (fun _ => True) Flips Sweeps Halt.Failed := by
  have hA : ∀ a, Act.Basic a → ∀ r user, ¬Flips user ⟨a, r⟩ := fun _ h => h.common.not_flips
  cases t with
  | revokeAccess user reason actor => exact .bind (revokeAccess_owes user reason actor) fun _ => trivial
  | handle env => exact .bind (handle_owes P env) fun _ => trivial
  | rotateBearer link ttl =>
    exact .of_all (.bind (rotateBearer_all P hA (fun _ _ _ _ _ _ _ => not_false) _ _) fun _ => trivial)
  | redeem link email =>
    exact .of_all (.bind (redeem_all P hA (fun _ _ _ _ _ => not_false) _ _) fun _ => trivial)
  | signup email presented ip =>
    exact .of_all (.bind (signup_all P (basic_enters hA) (fun _ _ _ _ => not_false) _ _ _) fun _ => trivial)
  | route request =>
    exact .of_all (.bind (route_all P hA (fun _ _ _ _ => not_false) (fun _ _ _ _ _ _ _ => not_false)
      (fun _ _ _ _ _ => not_false) request) fun _ => trivial)
  | _ => exact .of_all (serve_common P hA (fun _ _ _ _ _ _ _ => not_false) not_false)

end

/-! ## The runs -/

theorem exec_stray {a : Act} {i : Env} {w : World} {user : Uuid} (hown : OwnsRotated a w)
    (h : (a.exec i w).2.db.Stray user) :
    Flips user ⟨a, (a.exec i w).1⟩ ∨ ¬Sweeps user ⟨a, (a.exec i w).1⟩ ∧ (w.db.Stray user ∨
      a.mintee = some user ∧ ∃ u ∈ w.db.users.rows, u.id = user ∧ u.status = .revoked) := by
  have unmoved : (a.exec i w).2.db = w.db → ¬Sweeps user ⟨a, (a.exec i w).1⟩ → Flips user ⟨a, (a.exec i w).1⟩ ∨
      ¬Sweeps user ⟨a, (a.exec i w).1⟩ ∧ (w.db.Stray user ∨
        a.mintee = some user ∧ ∃ u ∈ w.db.users.rows, u.id = user ∧ u.status = .revoked) := by
    intro hdb hs
    rw [hdb] at h
    exact .inr ⟨hs, .inl h⟩
  cases a with
  | sql q =>
    cases hq : (q.answer i w.db).1 with
    | error e =>
      apply unmoved (Stmt.answer_error hq)
      rw [show ((Act.sql q).exec i w).1 = .error e from hq]
      cases q <;> exact not_false
    | ok r =>
      have hexec := (Stmt.answer_ok hq).2
      rw [show ((Act.sql q).exec i w).1 = .ok r from hq]
      rcases exec_revoked hexec h.1 with hrevoked | hflip
      · refine .inr ⟨fun hs => exec_sweeps hexec hs h.2, ?_⟩
        rcases exec_active hexec h.2 with hactive | hmint | ⟨old, id, nonce, expires, rfl⟩
        · exact .inl ⟨hrevoked, hactive⟩
        · exact .inr ⟨hmint, hrevoked⟩
        · -- a rotation spends an active bearer of the same principal
          rcases exec_rotateToken hexec with ⟨-, hdb⟩ | ⟨spent, t, -, ht, hid, hact, -, -⟩
          · have hsame := h.2
            rw [show ((Act.sql (.rotateToken old id user nonce expires)).exec i w).2.db =
              w.db from hdb] at hsame
            exact .inl ⟨hrevoked, hsame⟩
          · obtain ⟨s, hs, hsu⟩ := hown
            have hst : s = t := w.db.tokens.key_inj (Table.get_eq_some.mp hs).1 ht
              ((Table.get_eq_some.mp hs).2.trans hid.symm)
            exact .inl ⟨hrevoked, t, ht, hst ▸ hsu, hact⟩
      · exact .inl hflip
  | _ => exact unmoved rfl not_false

theorem finished_owes_nothing {c : Call portalSig Halt Reply Request}
    {Can pay : Event portalSig → Prop} (hc : Finished c) :
    ¬c.rest.Due Can pay Halt.Failed := by
  intro hdue
  unfold Finished at hc
  split at hc
  next a ho =>
    obtain ⟨e, he, -⟩ := hdue.outcome ho
    cases he
  next e ho =>
    obtain ⟨e', he, hfailed⟩ := hdue.outcome ho
    cases he
    exact hc hfailed
  next => exact hc

namespace Probe

def quiet : Pool portalMachine Halt Reply Request := ⟨world enrolled, []⟩

def loggingIn (n : Nat) : List (Move portalMachine Request) :=
  alone 0 n (.login email "secret" "10.0.0.1") { env with uuid := uuid 3 }

def logsIn (n : Nat) : List (Move portalMachine Request) :=
  List.replicate n (.step 0 { env with uuid := uuid 3 })

def offboarding (n : Nat) : List (Move portalMachine Request) :=
  alone 1 n (.revokeAccess (uuid 2) "offboarded" "officer") env

def overtaken : List (Move portalMachine Request) := loggingIn 5 ++ offboarding 3 ++ logsIn 9

def sweptAway : List (Move portalMachine Request) :=
  loggingIn 5 ++ offboarding 1 ++ logsIn 9 ++ List.replicate 3 (.step 1 env)

end Probe

end BackbonePortal
