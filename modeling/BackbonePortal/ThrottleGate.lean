import BackbonePortal.Alone
import BackbonePortal.Footprint
import BackbonePortal.Verification

/-!
# The throttle at the four routes

Which arms of the credential routes stand behind the attempt book: what each
does with a request whose address or identity the book refuses.
-/

namespace BackbonePortal

open Proc Tables

/-! ## The refused request -/

def AttemptBook.Refuses (b : AttemptBook) (key : String) (i : Nat → Env) : Prop :=
  ∀ n, ∃ e, b.check key (i n).now = .error e

/-- The keys of a request: its IP key and, where its body names an address, the
identity key the route uses for it. -/
def RouteRequest.keys (P : Portal) : RouteRequest → List String
  | .redeemInvite h (.ok b) => ["portal|id:" ++ P.normalizeEmail b.email, ipKey (visitorIp h)]
  | .login h (.ok b) | .signup h (.ok b) => [P.identityKey (P.normalizeEmail b.email), ipKey (visitorIp h)]
  | .redeemInvite h _ | .login h _ | .signup h _ | .rotate h _ => [ipKey (visitorIp h)]

def RouteRequest.Throttled (P : Portal) (request : RouteRequest) (i : Nat → Env) (w : World) : Prop :=
  ∃ key ∈ request.keys P, w.book.Refuses key i

/-- The same tables, the same counters, and no call of the verifier in between. -/
structure Untouched (w w' : World) : Prop where
  db : w'.db = w.db
  book : w'.book = w.book
  gate : w'.gate = w.gate

def Portal.Gates (P : Portal) (request : RouteRequest) (i : Nat → Env) (w : World) : Prop :=
  (∃ n, ((P.route request).run portalMachine i w).1 = .ok (rateLimitedResponse n)) ∧
    Untouched w ((P.route request).run portalMachine i w).2

def Db.SignupOpen (db : Db) : Prop := ∃ p ∈ db.policies.rows, p.live = true ∧ p.enabled = true

def RouteRequest.ReachesBook (P : Portal) (i : Nat → Env) (db : Db) : RouteRequest → Prop
  | .login _ (.ok b) => P.normalizeEmail b.email ≠ ""
  | .signup _ (.ok b) =>
    let email := P.normalizeEmail b.email
    (email ≠ "" ∧ '@' ∈ email.toList) ∧ ((i 0).fault = none ∧ db.SignupOpen) ∧ (i 1).fault = none ∧
      ∀ u, db.principal email = some u → u.status = .active
  | .rotate _ (.ok _) => True
  | _ => False

/-! ## The check -/

section
variable {α : Type} (i : Nat → Env) (w : World)

theorem run_checkKey (key : String) (now : Instant) (f : Unit → Verb α) :
    (∃ e, w.book.check key now = .error e ∧
      ((checkKey key now).bind f).run portalMachine i w = (.error (.err e), { w with clock := (i 0).now })) ∨
    (w.book.check key now = .ok () ∧
      ((checkKey key now).bind f).run portalMachine i w =
        (f ()).run portalMachine (from_ 1 i) { w with clock := (i 0).now }) := by
  cases hc : w.book.check key now with
  | error e => exact .inl ⟨e, rfl, by simp only [checkKey, Prog.bind_act, Prog.run_act, Act.exec, hc]; rfl⟩
  | ok u => exact .inr ⟨rfl, by simp only [checkKey, Prog.bind_act, Prog.run_act, Act.exec, hc]; rfl⟩

end

def RateLimits (p : Verb α) (i : Nat → Env) (w : World) : Prop :=
  ∃ n w', p.run portalMachine i w = (.error (.err (.rateLimited n)), w') ∧ Untouched w w'

theorem Untouched.trans {u v w : World} (h : Untouched u v) (h' : Untouched v w) : Untouched u w :=
  ⟨h'.db.trans h.db, h'.book.trans h.book, h'.gate.trans h.gate⟩

section
variable {P : Portal} {α : Type} {i : Nat → Env} {w : World} {key email presented ip : String}

theorem untouched_tick (t : Instant) : Untouched w { w with clock := t } := ⟨rfl, rfl, rfl⟩

theorem AttemptBook.Refuses.later {b : AttemptBook} (h : b.Refuses key i) (k : Nat) :
    b.Refuses key (from_ k i) :=
  fun n => h (n + k)

theorem limits_checkKey {now : Instant} {f : Unit → Verb α}
    (h : (∃ e, w.book.check key now = .error e) ∨ ∀ w', Untouched w w' → RateLimits (f ()) (from_ 1 i) w') :
    RateLimits ((checkKey key now).bind f) i w := by
  rcases run_checkKey i w key now f with ⟨e, he, hrun⟩ | ⟨hok, hrun⟩
  · obtain ⟨n, rfl⟩ := AttemptBook.check_error he
    exact ⟨n, _, hrun, untouched_tick _⟩
  · rcases h with ⟨e, he⟩ | h
    · cases hok.symm.trans he
    · obtain ⟨n, w', hf, hu⟩ := h _ (untouched_tick (i 0).now)
      exact ⟨n, w', hrun.trans hf, (untouched_tick _).trans hu⟩

theorem limits_utcNow {f : Instant → Verb α}
    (h : ∀ w', Untouched w w' → RateLimits (f (i 0).now) (from_ 1 i) w') :
    RateLimits (utcNow.bind f) i w := by
  obtain ⟨n, w', hf, hu⟩ := h _ (untouched_tick (i 0).now)
  exact ⟨n, w', (run_utcNow i w f).trans hf, (untouched_tick _).trans hu⟩

theorem limits_checkNow {f : Unit → Verb α}
    (h : w.book.Refuses key i ∨ ∀ w', Untouched w w' → RateLimits (f ()) (from_ 2 i) w') :
    RateLimits ((checkNow key).bind f) i w := by
  rw [checkNow, Prog.bind_eq, Prog.bind_assoc]
  refine limits_utcNow fun w₁ h₁ => limits_checkKey ?_
  apply h.imp (fun h => h₁.book ▸ h 0)
  intro h w₂ h₂
  rw [from_from]
  exact h w₂ (h₁.trans h₂)

def KeyRefused (P : Portal) (email ip : String) (i : Nat → Env) (w : World) : Prop :=
  w.book.Refuses (P.identityKey email) i ∨ w.book.Refuses (ipKey ip) i

theorem keyRefused_of_mem (hkey : key ∈ [P.identityKey email, ipKey ip]) (h : w.book.Refuses key i) :
    KeyRefused P email ip i w := by
  rcases List.mem_cons.mp hkey with rfl | hkey
  · exact .inl h
  · cases List.mem_singleton.mp hkey
    exact .inr h

theorem KeyRefused.later (h : KeyRefused P email ip i w) {w' : World} (hw : Untouched w w') (k : Nat) :
    KeyRefused P email ip (from_ k i) w' := by
  unfold KeyRefused
  rw [hw.book]
  exact h.imp (fun h => h.later k) fun h => h.later k

theorem verifyAndMint_limits (event : String) (h : KeyRefused P email ip i w) :
    RateLimits (P.verifyAndMint email presented ip event) i w := by
  unfold Portal.verifyAndMint
  refine limits_utcNow fun w₁ h₁ => limits_checkKey ?_
  refine h.imp (fun h => h₁.book ▸ h 0) fun h w₂ h₂ => limits_checkKey (.inl ?_)
  rw [(h₁.trans h₂).book]
  exact h 0

theorem signupFresh_limits (h : KeyRefused P email ip i w) :
    RateLimits (P.signupFresh email presented ip) i w := by
  unfold Portal.signupFresh
  refine limits_checkNow (h.imp id fun h w₁ h₁ => limits_checkNow (.inl ?_))
  rw [h₁.book]
  exact h.later 2

/-! ## The arms ahead of the book -/

def Unlimited (o : Except Halt α) : Prop := ∀ n, o ≠ .error (.err (.rateLimited n))

theorem not_limits {p : Verb α} (hp : p.Ends Unlimited) : ¬RateLimits p i w := by
  rintro ⟨n, w', hrun, -⟩
  exact Prog.run_ends portalMachine hp i w n (congrArg Prod.fst hrun)

theorem ends_refuse {e : PortalError} (he : ∀ n, e ≠ .rateLimited n) : (refuse e : Verb α).Ends Unlimited :=
  fun n h => he n (by cases h; rfl)

theorem ends_query {q : Stmt} {f : q.Res → Verb α} (h : ∀ r, (f r).Ends Unlimited) :
    ((query q).bind f).Ends Unlimited := by
  intro r
  cases r with
  | ok r => exact h r
  | error e => exact ends_refuse fun _ => PortalError.noConfusion

theorem policyEnabled_true {i : Env} {db : Db} :
    ((Stmt.policyEnabled).answer i db).1 = .ok true ↔ i.fault = none ∧ db.SignupOpen := by
  have hmem : ∀ p, p ∈ reorder i.scan (db.policies.rows.filter (·.live)) ↔
    p ∈ db.policies.rows ∧ p.live = true := by
    intro p
    rw [(reorder_perm _ _).mem_iff, List.mem_filter]
  constructor
  · intro h
    obtain ⟨hf, hq⟩ := Stmt.answer_ok h
    simp only [Stmt.exec] at hq
    split at hq
    next p hp =>
      simp only [Except.ok.injEq, Prod.mk.injEq] at hq
      obtain ⟨hm, hl⟩ := (hmem p).mp (List.mem_of_head? hp)
      exact ⟨hf, p, hm, hl, hq.1⟩
    next => cases hq
  · rintro ⟨hf, p, hm, hl, he⟩
    have hin := (hmem p).mpr ⟨hm, hl⟩
    cases hd : (reorder i.scan (db.policies.rows.filter (·.live))).head? with
    | none => rw [List.head?_eq_none_iff.mp hd] at hin; cases hin
    | some q =>
      -- the unique index leaves room for one row
      have hqp : q = p := db.policies.idx_inj ((hmem q).mp (List.mem_of_head? hd)).1 hm rfl rfl
      have hexec : (Stmt.policyEnabled).exec i.now.stored i.scan db = .ok (true, db) := by
        simp only [Stmt.exec, hd, hqp, he]
      rw [Stmt.answer_of_ok hf hexec]

theorem policyEnabled_reads {i : Env} {db : Db} : ((Stmt.policyEnabled).answer i db).2 = db := by
  cases hq : ((Stmt.policyEnabled).answer i db).1 with
  | error e => exact Stmt.answer_error hq
  | ok r =>
    have hexec := (Stmt.answer_ok hq).2
    simp only [Stmt.exec] at hexec
    split at hexec
    · simp only [Except.ok.injEq, Prod.mk.injEq] at hexec
      exact hexec.2.symm
    · cases hexec

theorem limits_congr {p q : Verb α} {j : Nat → Env} {t : Instant}
    (h : p.run portalMachine i w = q.run portalMachine j { w with clock := t }) :
    RateLimits p i w ↔ RateLimits q j { w with clock := t } := by
  unfold RateLimits
  rw [h]
  exact ⟨fun ⟨n, w', hrun, hu⟩ => ⟨n, w', hrun, hu.db, hu.book, hu.gate⟩,
    fun ⟨n, w', hrun, hu⟩ => ⟨n, w', hrun, hu.db, hu.book, hu.gate⟩⟩

theorem run_signupOpen (i : Nat → Env) (w : World) (f : Bool → Verb α) :
    (signupOpen.bind f).run portalMachine i w =
      (f (((Stmt.policyEnabled).answer (i 0) w.db).1.toOption.getD false)).run portalMachine (from_ 1 i)
        { w with clock := (i 0).now } := by
  simp only [signupOpen, trySql, Prog.bind_eq, Prog.bind_act, Prog.run_act, Act.exec, policyEnabled_reads]
  cases ((Stmt.policyEnabled).answer (i 0) w.db).1 <;> rfl

theorem limits_signupOpen (i : Nat → Env) (w : World) :
    ∃ is_open : Bool, (is_open = true ↔ (i 0).fault = none ∧ w.db.SignupOpen) ∧ ∀ f : Bool → Verb α,
      RateLimits (signupOpen.bind f) i w ↔
        RateLimits (f is_open) (from_ 1 i) { w with clock := (i 0).now } := by
  refine ⟨_, ?_, fun f => limits_congr (run_signupOpen i w f)⟩
  rw [← policyEnabled_true]
  cases ((Stmt.policyEnabled).answer (i 0) w.db).1 with
  | error e => simp [Except.toOption]
  | ok r => simp [Except.toOption]

theorem limits_liveUserByEmail {f : Option (Uuid × PortalUserStatus) → Verb α} :
    RateLimits ((query (.liveUserByEmail email)).bind f) i w ↔ (i 0).fault = none ∧
      RateLimits (f ((w.db.principal email).map fun u => (u.id, u.status))) (from_ 1 i)
        { w with clock := (i 0).now } := by
  cases hf : (i 0).fault with
  | none =>
    rw [eq_self_iff_true, true_and]
    exact limits_congr (run_query_ok i w (Stmt.answer_of_ok hf rfl))
  | some text =>
    refine iff_of_false ?_ fun h => nomatch h.1
    rintro ⟨n, w', hrun, -⟩
    rcases run_query i w (.liveUserByEmail email) f with ⟨e, -, hrun'⟩ | ⟨r, hr, -⟩
    · cases hrun.symm.trans hrun'
    · rw [Stmt.answer_fault hf] at hr
      cases hr

theorem signup_limits (h : KeyRefused P (P.normalizeEmail email) ip i w) :
    RateLimits (P.signup email presented ip) i w ↔
      (P.normalizeEmail email ≠ "" ∧ '@' ∈ (P.normalizeEmail email).toList) ∧
        ((i 0).fault = none ∧ w.db.SignupOpen) ∧ (i 1).fault = none ∧
        ∀ u, w.db.principal (P.normalizeEmail email) = some u → u.status = .active := by
  unfold Portal.signup
  dsimp only
  split
  next hbad =>
    refine iff_of_false (not_limits (ends_refuse fun _ => PortalError.noConfusion)) fun hr => ?_
    rcases hbad with hbad | hbad
    · exact hr.1.1 hbad
    · exact hbad hr.1.2
  next hgood =>
    rw [not_or, not_not] at hgood
    simp only [ne_eq, hgood, not_false_eq_true, true_and]
    have h₁ := h.later (untouched_tick (i 0).now) 1
    obtain ⟨is_open, hopen, hlimits⟩ := limits_signupOpen (α := Uuid × String) i w
    rw [Prog.bind_eq, hlimits, ← hopen]
    cases is_open with
    | false =>
      apply iff_of_false (not_limits (ends_query fun _ => ends_refuse fun _ => PortalError.noConfusion))
      exact fun hr => Bool.noConfusion hr.1
    | true =>
      rw [eq_self_iff_true, true_and]
      dsimp only
      rw [Prog.bind_eq, limits_liveUserByEmail]
      apply and_congr Iff.rfl
      cases hp : w.db.principal (P.normalizeEmail email) with
      | none =>
        refine iff_of_true ?_ fun u hu => nomatch hu
        exact signupFresh_limits (h₁.later (untouched_tick (from_ 1 i 0).now) 1)
      | some u =>
        simp only [Option.map_some, Option.some.injEq, forall_eq']
        split
        next hn => exact iff_of_false (not_limits (ends_refuse fun _ => PortalError.noConfusion)) hn
        next hn =>
          refine iff_of_true ?_ (not_not.mp hn)
          exact verifyAndMint_limits _ (h₁.later (untouched_tick (from_ 1 i 0).now) 1)

theorem login_limits (h : KeyRefused P (P.normalizeEmail email) ip i w) :
    RateLimits (P.login email presented ip) i w ↔ P.normalizeEmail email ≠ "" := by
  unfold Portal.login
  dsimp only
  split
  next hn =>
    exact iff_of_false (not_limits (ends_refuse fun _ => PortalError.noConfusion)) (not_not.mpr hn)
  next hn => exact iff_of_true (verifyAndMint_limits _ h) hn

end

/-! ## The routes -/

section
variable {P : Portal} {α : Type} {i : Nat → Env} {w : World}

theorem portalErrorResponse_limit {e : PortalError} {n : Int}
    (h : P.portalErrorResponse e = rateLimitedResponse n) :
    ∃ m, e = .rateLimited m := by
  have hstatus := congrArg Response.status h
  cases e with
  | rateLimited m => exact ⟨m, rfl⟩
  | _ => simp [Portal.portalErrorResponse, refused, rateLimitedResponse, PortalError.httpStatus] at hstatus

theorem gates_answered {p : Verb α} {ok : α → Response} (hok : ∀ a, (ok a).status ≠ 429) :
    ((∃ n, ((answered p ok fun e => pure (P.portalErrorResponse e)).run portalMachine i w).1 =
        .ok (rateLimitedResponse n)) ∧
      Untouched w ((answered p ok fun e => pure (P.portalErrorResponse e)).run portalMachine i w).2) ↔
      RateLimits p i w := by
  rw [answered, Prog.bind_eq, Prog.run_bind, Prog.run_attempt]
  unfold RateLimits
  generalize p.run portalMachine i w = o
  obtain ⟨o, w'⟩ := o
  constructor
  · rintro ⟨⟨n, hn⟩, hu⟩
    cases o with
    | ok a => exact absurd (congrArg Response.status (Except.ok.inj hn)) (hok a)
    | error h =>
      cases h with
      | err e =>
        obtain ⟨m, rfl⟩ := portalErrorResponse_limit (Except.ok.inj hn)
        exact ⟨m, w', rfl, hu⟩
      | event handler message => cases hn
      | panicked message => cases hn
  · rintro ⟨n, w'', ho, hu⟩
    cases ho
    exact ⟨⟨n, rfl⟩, hu⟩

theorem rejection_ungated (r : JsonRejection) (text : String) (n : Int) :
    (.ok { status := r.status, body := .text text } : Except Halt Response) ≠ .ok (rateLimitedResponse n) := by
  intro h
  cases congrArg Response.body (Except.ok.inj h)

/-! ## The route without a check -/

theorem Unlimited.cast {β : Type} {h : Halt} (hu : Unlimited (.error h : Except Halt α)) :
    Unlimited (.error h : Except Halt β) := fun n he => hu n (by cases he; rfl)

theorem unlimited_ok {a : α} : Unlimited (.ok a) := fun _ h => nomatch h

theorem mintBearer_unlimited (user : Uuid) (ttl : Int) : (P.mintBearer user ttl).Ends Unlimited := by
  refine (mintBearer_ends P user ttl).mono fun o ho n hn => ?_
  subst hn
  rcases ho with ⟨link, h⟩ | ⟨m, h⟩ | ⟨e, h, rfl | ⟨s, rfl⟩⟩
  · cases h
  · cases h
  · cases h
  · cases h

theorem redeem_unlimited (link email : String) : (P.redeem link email).Ends Unlimited := by
  have refused : (refuse .credentialRefused : Verb (Uuid × String)).Ends Unlimited :=
    ends_refuse fun _ => PortalError.noConfusion
  unfold Portal.redeem
  dsimp only
  split
  · exact refused
  apply ends_query
  intro row
  split
  · exact refused
  split
  · exact refused
  intro now
  dsimp only [Prog.bind_ret]
  split
  · exact refused
  intro user
  apply ends_query
  intro redeemed
  cases redeemed with
  | false => exact refused
  | true =>
    refine ends_query fun _ => (mintBearer_unlimited _ _).bind (fun _ _ => unlimited_ok) fun _ h => h.cast

theorem redeemInviteRoute_unlimited (headers : Headers) (body : RedeemInviteRequest) :
    (P.redeemInviteRoute headers (.ok body)).Ends fun o => ∀ n, o ≠ .ok (rateLimitedResponse n) := by
  refine (redeem_unlimited body.link body.email).attempt.bind (fun r hr => ?_) fun _ _ _ h => nomatch h
  obtain ⟨o, ho, hu⟩ := hr
  cases ho
  cases r with
  | ok a =>
    intro n h
    cases congrArg Response.status (Except.ok.inj h)
  | error h =>
    cases h with
    | err e =>
      have limit : ∀ n,
        (.ok (P.portalErrorResponse e) : Except Halt Response) ≠ .ok (rateLimitedResponse n) := by
        intro n h
        obtain ⟨m, rfl⟩ := portalErrorResponse_limit (Except.ok.inj h)
        exact hu m rfl
      cases e with
      | credentialRefused => exact fun _ _ _ _ n h => limit n h
      | _ => exact limit
    | event handler message => exact fun _ h => nomatch h
    | panicked message => exact fun _ h => nomatch h

theorem rotateRoute_gates {headers : Headers} {body : RotateRequest}
    (h : w.book.Refuses (ipKey (visitorIp headers)) i) :
    P.Gates (.rotate headers (.ok body)) i w := by
  obtain ⟨n, w', hrun, hu⟩ : RateLimits (checkNow (ipKey (visitorIp headers))) i w := by
    rw [← Prog.bind_ret_right (checkNow _)]
    exact limits_checkNow (.inl h)
  have hroute : (P.route (.rotate headers (.ok body))).run portalMachine i w =
    (.ok (rateLimitedResponse n), w') := by
    simp only [Portal.route, Portal.rotateRoute, extract, Prog.bind_eq, Prog.run_bind, Prog.run_attempt, hrun]
    rfl
  rw [Portal.Gates, hroute]
  exact ⟨⟨n, rfl⟩, hu⟩

end

/-- **The throttle at the routes.** A route turns a throttled request away with
429 and no other effect exactly when the request reaches the book: every
`rotate`, a `login` with an address, a `signup` that is open to the address,
and no `redeem-invite`. -/
theorem throttled_request_gated_iff (P : Portal) (request : RouteRequest) (i : Nat → Env) (w : World) :
    (request.Throttled P i w → P.Gates request i w) ↔
    (request.Throttled P i w → request.ReachesBook P i w.db) := by
  apply forall_congr'
  intro ht
  obtain ⟨key, hkey, hrefused⟩ := ht
  cases request with
  | redeemInvite headers body =>
    refine iff_of_false (fun hg => ?_) id
    obtain ⟨⟨n, hn⟩, -⟩ := hg
    cases body with
    | error e => exact rejection_ungated e.1 e.2 n hn
    | ok b => exact Prog.run_ends portalMachine (redeemInviteRoute_unlimited headers b) i w n hn
  | login headers body =>
    cases body with
    | error e => exact iff_of_false (fun hg => hg.1.elim (rejection_ungated e.1 e.2)) id
    | ok b =>
      have hk := keyRefused_of_mem hkey hrefused
      exact (gates_answered fun _ => by simp [bearerResponse]).trans (login_limits hk)
  | signup headers body =>
    cases body with
    | error e => exact iff_of_false (fun hg => hg.1.elim (rejection_ungated e.1 e.2)) id
    | ok b =>
      have hk := keyRefused_of_mem hkey hrefused
      exact (gates_answered fun _ => by simp [bearerResponse]).trans (signup_limits hk)
  | rotate headers body =>
    cases body with
    | error e => exact iff_of_false (fun hg => hg.1.elim (rejection_ungated e.1 e.2)) id
    | ok b =>
      simp only [RouteRequest.keys, List.mem_cons, List.not_mem_nil, or_false] at hkey
      exact iff_of_true (rotateRoute_gates (hkey ▸ hrefused)) trivial

namespace Probe

def visitor : Headers := { xForwardedFor := some "10.0.0.1" }

def hammered : AttemptBook :=
  (AttemptBook.empty.registerFailure (ipKey "10.0.0.1") now).registerFailure (portal.identityKey email) now

def presentation : RouteRequest := .redeemInvite visitor (.ok ⟨inviteLink, email⟩)

end Probe

/-- A refused visitor presents an invitation, and is admitted. -/
theorem throttled_redemption_admits :
    Probe.presentation.Throttled Probe.portal (fun _ => Probe.env)
      { Probe.world Probe.invited with book := Probe.hammered } ∧
    ¬Probe.portal.Gates Probe.presentation (fun _ => Probe.env)
      { Probe.world Probe.invited with book := Probe.hammered } ∧
    ((Probe.portal.route Probe.presentation).run portalMachine (fun _ => Probe.env)
      { Probe.world Probe.invited with book := Probe.hammered }).2.db.invites.rows.map (·.status) =
      [.redeemed] := by
  have hrun : ((Probe.portal.route Probe.presentation).run portalMachine (fun _ => Probe.env)
      { Probe.world Probe.invited with book := Probe.hammered }).2.db.invites.rows.map (·.status) =
      [.redeemed] := by
    simp only [Probe.presentation, Portal.route, Portal.redeemInviteRoute, extract]
    rw [Portal.redeem.eq_1, Probe.parse_inviteLink]
    decide +kernel
  have hcheck : Probe.hammered.check (ipKey (visitorIp Probe.visitor)) Probe.now = .error (.rateLimited 1) := by
    decide +kernel
  refine ⟨⟨ipKey (visitorIp Probe.visitor), .tail _ (.head _), fun _ => ⟨_, hcheck⟩⟩, fun hg => ?_, hrun⟩
  rw [hg.2.db] at hrun
  exact absurd hrun (by decide +kernel)

end BackbonePortal
