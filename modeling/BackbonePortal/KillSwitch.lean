import BackbonePortal.Footprint
import BackbonePortal.Gates
import BackbonePortal.LinkReach
import BackbonePortal.ThrottleGate

/-!
# The kill switch

A signup reads the policy first and inserts its principal several statements
later. The policy is the gate of the insert, and a kill is its closing.
-/

namespace BackbonePortal

open Proc Tables

def ReadsOpen : Event portalSig → Prop
  | ⟨.sql .policyEnabled, r⟩ => r = .ok true
  | _ => False

def Act.Inserts : Act → Prop
  | .sql (.insertSignup ..) => True
  | _ => False

/-- A flip to closed that commits. -/
def Act.Kills : Act → Env → World → Prop
  | .sql (.replacePolicy id false note officer), i, w =>
    ((Stmt.replacePolicy id false note officer).answer i w.db).1 = .ok ()
  | _, _, _ => False

/-- No kill commits while a signup that read the policy open may still insert. -/
def KillsAlone : Pool portalMachine Halt Reply Request → Move portalMachine Request → Prop :=
  Pool.ClosesAlone ReadsOpen Act.Inserts Act.Kills

def InsertsOpen (pool : Pool portalMachine Halt Reply Request) (m : Move portalMachine Request) : Prop :=
  ∀ x ∈ pool.performs m, x.1.Inserts → ∀ u ∈ (x.1.exec x.2 pool.world).2.db.users.rows,
    u ∉ pool.world.db.users.rows → pool.world.db.SignupOpen

instance : DecidablePred ReadsOpen := fun ev =>
  decidable_of_iff
    ((match ev with | ⟨.sql .policyEnabled, r⟩ => decide (r = .ok true) | _ => false) = true) (by
      unfold ReadsOpen
      split <;> simp)

instance : DecidablePred Act.Inserts := fun a => by
  unfold Act.Inserts
  split <;> exact inferInstance

instance (a : Act) (i : Env) (w : World) : Decidable (a.Kills i w) := by
  unfold Act.Kills
  split <;> exact inferInstance

instance (db : Db) : Decidable db.SignupOpen :=
  inferInstanceAs (Decidable (∃ p ∈ db.policies.rows, p.live = true ∧ p.enabled = true))

instance (pool : Pool portalMachine Halt Reply Request) (m : Move portalMachine Request) :
    Decidable (KillsAlone pool m) :=
  inferInstanceAs (Decidable (Pool.ClosesAlone ReadsOpen Act.Inserts Act.Kills pool m))

instance (pool : Pool portalMachine Halt Reply Request) (m : Move portalMachine Request) :
    Decidable (InsertsOpen pool m) :=
  inferInstanceAs
    (Decidable (∀ x ∈ pool.performs m, x.1.Inserts → ∀ u ∈ (x.1.exec x.2 pool.world).2.db.users.rows,
    u ∉ pool.world.db.users.rows → pool.world.db.SignupOpen))

/-! ## The switch -/

theorem readsOpen_open {a : Act} {i : Env} {w : World} (h : ReadsOpen ⟨a, (a.exec i w).1⟩) :
    (a.exec i w).2.db.SignupOpen := by
  cases a with
  | sql q =>
    cases q with
    | policyEnabled =>
      show ((Stmt.policyEnabled).answer i w.db).2.SignupOpen
      rw [policyEnabled_reads]
      exact (policyEnabled_true.mp h).2
    | _ => exact h.elim
  | _ => exact h.elim

theorem exec_stays_open {a : Act} {i : Env} {w : World} (hopen : w.db.SignupOpen) (hk : ¬a.Kills i w) :
    (a.exec i w).2.db.SignupOpen := by
  cases a with
  | sql q =>
    show (q.answer i w.db).2.SignupOpen
    cases hq : (q.answer i w.db).1 with
    | error e => rw [Stmt.answer_error hq]; exact hopen
    | ok r =>
      have hexec := (Stmt.answer_ok hq).2
      cases q with
      | replacePolicy id enabled note officer =>
        cases enabled with
        | false => exact absurd hq hk
        | true =>
          obtain ⟨policies, hrows, hp⟩ := exec_replacePolicy hexec
          rw [hp]
          exact ⟨_, hrows ▸ List.mem_singleton.mpr rfl, rfl, rfl⟩
      | _ =>
        have hp := (exec_framed _ hexec).policies (by simp [Stmt.writes])
        unfold Db.SignupOpen
        rw [hp]
        exact hopen
  | _ => exact hopen

/-! ## The verbs -/

theorem Act.Common.not_inserts {a : Act} (h : a.Common) : ¬a.Inserts := by
  cases a with
  | sql q => cases q <;> first | exact h.elim | exact not_false
  | _ => exact not_false

section
variable (P : Portal)

theorem insertSignup_once (id : Uuid) (email : String) : (query (.insertSignup id email)).Once Act.Inserts := by
  intro r
  cases r with
  | ok r => exact ⟨fun _ => trivial, trivial⟩
  | error e => exact ⟨fun _ => trivial, trivial⟩

theorem createPrincipal_once (email : String) : (P.createPrincipal email).Once Act.Inserts := by
  have hA : ∀ a, Act.Basic a → ¬a.Inserts := fun _ h => h.common.not_inserts
  refine .bind_right (all_step (hA _ trivial)) fun id =>
    .bind_left (insertSignup_once id email) fun inserted => ?_
  exact .bind (createdPrincipal_all (basic_enters hA) _ _) fun user =>
    .bind (audit_all (basic_enters hA) (by simp)) fun _ =>
    .bind (mintBearer_all P (fun a h => hA a h.basic) _ _) fun _ => trivial

theorem signupFresh_once (email presented ip : String) :
    (P.signupFresh email presented ip).Once Act.Inserts := by
  have hA : ∀ a, Act.Basic a → ¬a.Inserts := fun _ h => h.common.not_inserts
  refine .bind_right (checkNow_all (basic_enters hA) _) fun _ =>
    .bind_right (checkNow_all (basic_enters hA) _) fun _ =>
    .bind_right (all_step (hA _ trivial)) fun verdict => ?_
  split
  · exact createPrincipal_once P email
  · exact .of_all (.bind (registerNow_all (basic_enters hA) _) fun _ =>
      .bind (registerNow_all (basic_enters hA) _) fun _ => trivial)
  · trivial
  · exact .of_all (.bind (audit_all (basic_enters hA) (by simp)) fun _ => trivial)

theorem signup_behind (email presented ip : String) :
    (P.signup email presented ip).Behind ReadsOpen Act.Inserts := by
  have hA : ∀ a, Act.Basic a → ¬a.Inserts := fun _ h => h.common.not_inserts
  unfold Portal.signup
  dsimp only
  split
  · trivial
  refine ⟨not_false, fun r => ⟨fun hopen => ?_, fun hclosed => ?_⟩⟩
  · cases hopen
    show ((query (.liveUserByEmail (P.normalizeEmail email))).bind _).Once Act.Inserts
    refine .bind_right (all_query (hA _ trivial)) fun row => ?_
    split
    · split
      · trivial
      · exact .of_all (verifyAndMint_all P (basic_enters hA) _ _ _ _)
    · exact signupFresh_once P _ _ _
  · have refused : (do
        audit "signup_refused_policy_closed" none none none "anonymous" (.object [])
        refuse .signupClosed : Verb (Uuid × String)).Behind ReadsOpen Act.Inserts :=
      .of_all (.bind (audit_all (basic_enters hA) (by simp)) fun _ => trivial)
    cases r with
    | error e => exact refused
    | ok enabled =>
      cases enabled with
      | false => exact refused
      | true => exact absurd rfl hclosed

theorem signupRoute_behind (headers : Headers) (body : Body PasswordRequest) :
    (P.signupRoute headers body).Behind ReadsOpen Act.Inserts := by
  cases body with
  | error e => trivial
  | ok body =>
    refine .bind_left (signup_behind P _ _ _).attempt fun outcome => ?_
    split <;> trivial

theorem route_behind (request : RouteRequest) : (P.route request).Behind ReadsOpen Act.Inserts := by
  have hA : ∀ a, Act.Basic a → ¬a.Inserts := fun _ h => h.common.not_inserts
  cases request with
  | redeemInvite headers body => exact .of_all (redeemInviteRoute_all P hA (fun _ _ _ => not_false) _ _)
  | login headers body => exact .of_all (loginRoute_all P hA _ _)
  | signup headers body => exact signupRoute_behind P headers body
  | rotate headers body => exact .of_all (rotateRoute_all P hA (fun _ _ _ _ _ => not_false) _ _)

theorem serve_behind (t : Request) : (P.serve t).Behind ReadsOpen Act.Inserts := by
  have hA : ∀ a, Act.Basic a → ¬a.Inserts := fun _ h => h.common.not_inserts
  cases t with
  | signup email presented ip => exact .bind_left (signup_behind P _ _ _) fun _ => trivial
  | route request => exact .bind_left (route_behind P request) fun _ => trivial
  | rotateBearer link ttl =>
    exact .of_all (.bind (rotateBearer_all P hA (fun _ _ _ _ _ => not_false) _ _) fun _ => trivial)
  | redeem link email => exact .of_all (.bind (redeem_all P hA (fun _ _ _ => not_false) _ _) fun _ => trivial)
  | revokeAccess user reason actor =>
    exact .of_all (.bind (revokeAccess_all hA (fun _ _ => not_false) _ _ _) fun _ => trivial)
  | handle env => exact .of_all (.bind (handle_all P hA (fun _ _ => not_false) _) fun _ => trivial)
  | _ => exact .of_all (serve_common P hA (fun _ _ _ _ _ => not_false) not_false)

end

/-- **The kill switch.** In every interleaving that commits no kill while a
signup that read the policy open may still insert, every principal that a signup
inserts is inserted while the policy is open. -/
theorem signups_stop_at_the_switch (P : Portal) (pool : Pool portalMachine Halt Reply Request)
    (ms : List (Move portalMachine Request)) (hcalls : pool.calls = [])
    (hms : pool.Admits P.serve KillsAlone ms) :
    pool.Admits P.serve InsertsOpen ms := by
  have hgate : pool.Admits P.serve (Pool.ActsOpen Act.Inserts fun w : World => w.db.SignupOpen) ms :=
    Pool.play_behind P.serve (fun _ _ _ => readsOpen_open) (fun _ _ _ => exec_stays_open)
      (serve_behind P) hcalls hms
  exact Pool.admits_of P.serve (I := fun _ => True) (fun _ _ _ _ => trivial)
    (fun R m hopen _ x hx hinserts _ _ _ => hopen x hx hinserts) trivial hgate

namespace Probe

def welcoming : Pool portalMachine Halt Reply Request := ⟨world opened, []⟩

def signingUp : List (Move portalMachine Request) := alone 0 7 (.signup email "secret" "10.0.0.1") env

def signsUp : List (Move portalMachine Request) := List.replicate 8 (.step 0 env)

def kill : List (Move portalMachine Request) :=
  alone 1 3 (.setSignupPolicy false none none) { env with uuid := uuid 5 }

end Probe

/-- A kill commits between the reads of a signup and its insert: the principal
is created under the closed policy. -/
theorem signup_survives_kill :
    (Probe.welcoming.play Probe.portal.serve
      (Probe.signingUp ++ Probe.kill)).world.db.policies.rows.map (·.enabled) =
      [false] ∧
    (Probe.welcoming.play Probe.portal.serve (Probe.signingUp ++ Probe.kill)).world.db.users.rows = [] ∧
    (Probe.welcoming.play Probe.portal.serve
      (Probe.signingUp ++ Probe.kill ++ Probe.signsUp)).world.db.users.rows.map
      (fun u => (u.email, u.status)) = [(Probe.email, .active)] ∧
    ¬Probe.welcoming.Admits Probe.portal.serve InsertsOpen
      (Probe.signingUp ++ Probe.kill ++ Probe.signsUp) := by
  decide +kernel

theorem signups_stop_at_the_switch_probe :
    Probe.welcoming.Admits Probe.portal.serve InsertsOpen (Probe.signingUp ++ Probe.signsUp ++ Probe.kill) :=
  signups_stop_at_the_switch Probe.portal Probe.welcoming _ rfl (by decide +kernel)

end BackbonePortal
