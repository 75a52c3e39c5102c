import BackbonePortal.Calls
import BackbonePortal.Edges
import BackbonePortal.Isolation
import BackbonePortal.Moments
import BackbonePortal.Origins

/-!
# Verification is atomic

`verify_bearer` reads the bearer, the clock and the principal one after the
other, with other calls in between. `grant` is what the link is worth at one
instant. A verification answers what the link was worth right after one of its
own actions, and so does the door of the account routes.
-/

namespace BackbonePortal

open Proc Tables

/-- What a bearer link is worth at an instant: its principal, or nothing. -/
def Portal.grant (P : Portal) (link : String) (now : Instant) (db : Db) : Option PortalPrincipal := do
  let parts ← parseCapability link
  let row ← bearerJoin db parts.id
  let _ ← (db.users.get row.userId).filter fun u => u.status = .active && u.live
  if P.bearerAgrees P.bearerSecret parts row = true ∧ now ≤ row.expiresAt ∧ row.status = .active then
    pure ⟨row.userId, row.email, row.displayName⟩
  else none

def granted : Option PortalPrincipal → Except Halt PortalPrincipal
  | some p => .ok p
  | none => .error (.err .credentialRefused)

/-! ## What the other calls leave alone -/

/-- Rows stay and keep their identity, nobody becomes active again, and the
clock runs on. -/
structure Onward (w w' : World) : Prop where
  grows : Grows w w'
  dulls : ∀ id u v, w.db.users.get id = some u → w'.db.users.get id = some v → v.status = .active →
    u.status = .active
  clock : w.clock ≤ w'.clock

theorem Onward.refl (w : World) : Onward w w := by
  refine ⟨.refl w, fun id u v hu hv ha => ?_, Int.le_refl _⟩
  rw [hu] at hv; cases hv
  exact ha

theorem Onward.trans {u v w : World} (huv : Onward u v) (hvw : Onward v w) : Onward u w := by
  refine ⟨huv.grows.trans hvw.grows, fun id x z hx hz ha => ?_, Int.le_trans huv.clock hvw.clock⟩
  obtain ⟨y, hy, -⟩ := huv.grows.users.get hx
  exact huv.dulls id x y hx hy (hvw.dulls id y z hy hz ha)

theorem active_before {a : Act} {i : Env} {w : World} {id : Uuid} {u v : PortalUser}
    (hu : w.db.users.get id = some u) (hv : (a.exec i w).2.db.users.get id = some v) (ha : v.status = .active) :
    u.status = .active := by
  have same : (a.exec i w).2.db.users = w.db.users → u.status = .active := by
    intro he
    rw [he, hu] at hv; cases hv
    exact ha
  cases a with
  | sql q =>
    cases hq : (q.answer i w.db).1 with
    | error e => exact same (congrArg Db.users (Stmt.answer_error hq))
    | ok r =>
      obtain ⟨hm, hid⟩ := Table.get_eq_some.mp hu
      obtain ⟨hm', hid'⟩ := Table.get_eq_some.mp hv
      rcases user_origin (Stmt.answer_ok hq).2 hm' with ⟨x, hx, hstep⟩ | ⟨_, _, rfl, hnone, -⟩
      · have hxu : x = u := w.db.users.key_inj hx hm (hstep.id.symm.trans (hid'.trans hid.symm))
        subst hxu
        rcases hstep.status with hs | ⟨_, -, -, -, hs⟩
        · exact hs.symm.trans ha
        · rw [hs] at ha; cases ha
      · exact absurd (hid.trans hid'.symm) (Table.get_eq_none.mp hnone u hm)
  | _ => exact same rfl

def InTime (i : Env) (w : World) : Prop := w.clock ≤ i.now

theorem onward_exec (a : Act) (i : Env) (w : World) (h : InTime i w) : Onward w (a.exec i w).2 :=
  ⟨grows_exec a i w, fun _ _ _ => active_before, by rw [Act.exec_clock]; exact h⟩

/-! ## The rule of a statement -/

abbrev LinearVerb {α : Type} (V : Except Halt α → World → Prop) (seen : Except Halt α → Prop) (p : Verb α)
    (w : World) : Prop := p.Linear portalMachine Onward InTime V seen w

section
variable {α : Type} {V : Except Halt α → World → Prop} {seen : Except Halt α → Prop} {w : World}

theorem linear_query {q : Stmt} {f : q.Res → Verb α} (herr : ∀ e, seen (.error (.err (.db e))))
    (hok : ∀ w', Onward w w' → ∀ i, InTime i w' → ∀ r, (q.answer i w'.db).1 = .ok r →
      LinearVerb V (fun o => seen o ∨ V o (Act.exec (.sql q) i w').2) (f r) (Act.exec (.sql q) i w').2) :
    LinearVerb V seen ((query q).bind f) w := by
  intro w' hw i hi
  cases h : (Act.exec (.sql q) i w').1 with
  | ok r => exact hok w' hw i hi r h
  | error e => exact .inl (herr e)

theorem linear_played {P : Portal} {t : PortalCall} {V : Except Halt Reply → World → Prop}
    {D : Except Halt Reply → Prop} (hbody : ∀ w, LinearVerb V D (t.verb P) w) {pool : PortalPool}
    {ms : List PortalMove} (hcalls : pool.calls = []) (hclock : pool.Admits (PortalCall.verb P) Forward ms)
    {j : Nat} {c : Call portalSig Halt Reply PortalCall} {o : Except Halt Reply}
    (hc : (pool.play (PortalCall.verb P) ms).calls[j]? = some c) (htag : c.tag = t) (ho : c.outcome = some o) :
    D o ∨ pool.Sometime (PortalCall.verb P) ms j (V o) := by
  have hall : ∀ s : PortalCall, s = t → ∀ w, LinearVerb V D (s.verb P) w := by
    rintro s rfl
    exact hbody
  exact Pool.play_linear (G := Onward) (T := fun s => s = t) (V := fun _ => V) (D := fun _ => D) Onward.refl
    (fun _ _ _ => Onward.trans) onward_exec hall hcalls ms hclock j c hc htag o ho

theorem linear_step {a : Act} {f : a.Res → Verb α}
    (h : ∀ w', Onward w w' → ∀ i, InTime i w' →
      LinearVerb V (fun o => seen o ∨ V o (a.exec i w').2) (f (a.exec i w').1) (a.exec i w').2) :
    LinearVerb V seen (Prog.bind (@Prog.perform portalSig Halt a) f) w := h

end

/-! ## The worth of a link -/

section
variable {P : Portal} {link : String} {parts : ParsedCapability} {now : Instant} {db db' : Db}
  {row : BearerJoin}

theorem bearerJoin_rows (h : bearerJoin db parts.id = some row) :
    ∃ t u, db.tokens.get parts.id = some t ∧ db.users.get row.userId = some u ∧ t.userId = row.userId ∧
      t.tokenExpiresAt = row.expiresAt ∧ u.live = true := by
  unfold bearerJoin at h
  simp only [Option.bind_eq_bind, Option.bind_eq_some_iff, Option.filter_eq_some_iff, Option.pure_def,
    Option.some.injEq] at h
  obtain ⟨t, ⟨ht, -⟩, u, ⟨hu, hl⟩, rfl⟩ := h
  have hid : u.id = t.userId := (Table.get_eq_some.mp hu).2
  exact ⟨t, u, ht, hid ▸ hu, hid.symm, rfl, hl⟩

/-- Later the row is another one in its status only. -/
theorem bearerJoin_later {row' : BearerJoin} (he : Evolves db db') (h : bearerJoin db parts.id = some row)
    (h' : bearerJoin db' parts.id = some row') :
    row'.userId = row.userId ∧ row'.expiresAt = row.expiresAt := by
  obtain ⟨t, u, ht, -, hu, hx, -⟩ := bearerJoin_rows h
  obtain ⟨t', u', ht', -, hu', hx', -⟩ := bearerJoin_rows h'
  obtain ⟨s, hs, huser, -, hexpires, -⟩ := he.tokens.get ht
  rw [ht'] at hs; cases hs
  exact ⟨hu'.symm.trans (huser.trans hu), hx'.symm.trans (hexpires.trans hx)⟩

theorem grant_eq_some (hp : parseCapability link = some parts) {p : PortalPrincipal} :
    P.grant link now db = some p ↔ ∃ row u, bearerJoin db parts.id = some row ∧
      db.users.get row.userId = some u ∧ u.status = .active ∧ u.live = true ∧
      P.bearerAgrees P.bearerSecret parts row = true ∧ now ≤ row.expiresAt ∧ row.status = .active ∧
      p = ⟨row.userId, row.email, row.displayName⟩ := by
  unfold Portal.grant
  simp only [hp, Option.bind_eq_bind, Option.bind_some, Option.bind_eq_some_iff, Option.filter_eq_some_iff,
    Bool.and_eq_true, decide_eq_true_eq, Option.pure_def]
  constructor
  · rintro ⟨row, hrow, u, ⟨hu, ha, hl⟩, hif⟩
    split at hif
    next h =>
      cases hif
      exact ⟨row, u, hrow, hu, ha, hl, h.1, h.2.1, h.2.2, rfl⟩
    next => cases hif
  · rintro ⟨row, u, hrow, hu, ha, hl, hagree, htime, hs, rfl⟩
    exact ⟨row, hrow, u, ⟨hu, ha, hl⟩, if_pos ⟨hagree, htime, hs⟩⟩

theorem grant_none_of (hp : parseCapability link = some parts)
    (h : ∀ row u, bearerJoin db parts.id = some row → db.users.get row.userId = some u →
      P.bearerAgrees P.bearerSecret parts row = true → now ≤ row.expiresAt → row.status = .active →
      u.live = true → u.status ≠ .active) : P.grant link now db = none := by
  cases hg : P.grant link now db with
  | none => rfl
  | some p =>
    obtain ⟨row, u, hrow, hu, ha, hl, hagree, htime, hs, -⟩ := (grant_eq_some hp).mp hg
    exact absurd ha (h row u hrow hu hagree htime hs hl)

end

/-! ## The verification -/

/-- An answer that depends on no store: the database failed, the secret is not
configured, the link is no capability. -/
def Storeless (P : Portal) (link : String) (o : Except Halt PortalPrincipal) : Prop :=
  (∃ e, o = .error (.err (.db e))) ∨ (P.bearerSecret = [] ∧ o = .error (.err .bearerSecretNotConfigured)) ∨
    parseCapability link = none ∧ o = granted none

/-- The answer is what the link is worth in this world. -/
def Worth (P : Portal) (link : String) (o : Except Halt PortalPrincipal) (w : World) : Prop :=
  o = granted (P.grant link w.clock w.db)

theorem verifyBearer_linear (P : Portal) (link : String) (w : World) :
    LinearVerb (Worth P link) (Storeless P link) (P.verifyBearer link) w := by
  unfold Portal.verifyBearer
  by_cases hempty : P.bearerSecret = []
  · rw [show P.secret = .error .bearerSecretNotConfigured from if_pos hempty]
    exact .inr (.inl ⟨hempty, rfl⟩)
  rw [show P.secret = .ok P.bearerSecret from if_neg hempty]
  simp only [Prog.bind_eq, ofExcept_ok, Prog.bind_ret]
  cases hp : parseCapability link with
  | none => exact .inr (.inr ⟨hp, rfl⟩)
  | some parts =>
    have hfault : ∀ e, Storeless P link (.error (.err (.db e))) := fun e => .inl ⟨e, rfl⟩
    apply linear_query hfault
    intro w₁ h₁ i₁ hi₁ found hfound
    have hexec := (Stmt.answer_ok hfound).2
    have hdb : ((Stmt.bearerById parts.id).answer i₁ w₁.db).2 = w₁.db :=
      (Prod.mk.inj (Except.ok.inj hexec)).2.symm
    have hjoin : bearerJoin w₁.db parts.id = found := (Prod.mk.inj (Except.ok.inj hexec)).1
    have hread : (Act.exec (.sql (.bearerById parts.id)) i₁ w₁).2 = { w₁ with clock := i₁.now } := by
      show ({ w₁ with db := ((Stmt.bearerById parts.id).answer i₁ w₁.db).2, clock := i₁.now } : World) = _
      rw [hdb]
    rw [hread]
    cases found with
    | none =>
      refine .inr (congrArg granted (grant_none_of hp fun row u hrow => ?_).symm)
      rw [show bearerJoin w₁.db parts.id = none from hjoin] at hrow
      cases hrow
    | some row =>
      dsimp only
      split
      next hagree =>
        refine .inr (congrArg granted (grant_none_of hp fun row' u hrow _ hok => ?_).symm)
        rw [show bearerJoin w₁.db parts.id = some row from hjoin] at hrow; cases hrow
        rw [hagree] at hok; cases hok
      next hagree =>
      -- the clock
      apply linear_step
      intro w₃ h₃ i₃ hi₃
      show LinearVerb _ _ (if row.expiresAt < i₃.now then _ else _) { w₃ with clock := i₃.now }
      split
      next hlate =>
        refine .inr (congrArg granted (grant_none_of hp fun row' u hrow _ _ htime => ?_).symm)
        have hx := (bearerJoin_later h₃.grows hjoin hrow).2
        rw [hx] at htime
        exact absurd hlate (Int.not_lt.mpr htime)
      next hlate =>
      split
      next hspent =>
        refine .inl (.inr (congrArg granted (grant_none_of hp fun row' u hrow _ _ _ hs => ?_).symm))
        rw [show bearerJoin w₁.db parts.id = some row from hjoin] at hrow; cases hrow
        exact absurd hs hspent
      next hspent =>
      -- the principal
      apply linear_query fun e => .inl (.inl (hfault e))
      intro w₅ h₅ i₅ hi₅ status hstatus
      have hexec₅ := (Stmt.answer_ok hstatus).2
      have hdb₅ : ((Stmt.userStatus row.userId).answer i₅ w₅.db).2 = w₅.db :=
        (Prod.mk.inj (Except.ok.inj hexec₅)).2.symm
      have hrow₅ : ((w₅.db.users.get row.userId).filter (·.live)).map (·.status) = status :=
        (Prod.mk.inj (Except.ok.inj hexec₅)).1
      have hread₅ : (Act.exec (.sql (.userStatus row.userId)) i₅ w₅).2 = { w₅ with clock := i₅.now } := by
        show ({ w₅ with db := ((Stmt.userStatus row.userId).answer i₅ w₅.db).2, clock := i₅.now } : World) = _
        rw [hdb₅]
      rw [hread₅]
      have hgrows : Evolves w₁.db w₅.db := h₃.grows.trans h₅.grows
      -- a principal that is not active now is worth nothing now
      have hrefused : status ≠ some .active → Worth P link (granted none) { w₅ with clock := i₅.now } := by
        intro hne
        refine congrArg granted (grant_none_of hp fun row' u hrow hu _ _ _ hl ha => hne ?_).symm
        rw [(bearerJoin_later hgrows hjoin hrow).1] at hu
        rw [← hrow₅, show w₅.db.users.get row.userId = some u from hu, Option.filter_some, hl, if_pos rfl,
          Option.map_some, ha]
      cases status with
      | none => exact .inr (hrefused nofun)
      | some status =>
        dsimp only
        split
        next hne => exact .inr (hrefused fun he => hne (Option.some.inj he))
        next hactive =>
        -- an active principal was active when the bearer was read
        refine linear_step fun w₆ h₆ i₆ hi₆ => .inl (.inl (.inl (.inr ?_)))
        obtain ⟨t, u, ht, hu, huser, hx, hl⟩ := bearerJoin_rows hjoin
        obtain ⟨v, hv, hkeeps⟩ := hgrows.users.get hu
        rw [hv, Option.filter_some, hkeeps.2.1, hl, if_pos rfl, Option.map_some] at hrow₅
        have hva : v.status = .active := (Option.some.inj hrow₅).trans (not_not.mp hactive)
        have hua : u.status = .active := by
          have hon : Onward { w₁ with clock := i₁.now } w₅ :=
            h₃.trans ⟨h₅.grows, h₅.dulls, Int.le_trans hi₃ h₅.clock⟩
          exact hon.dulls _ u v hu hv hva
        refine congrArg granted ((grant_eq_some hp).mpr ⟨row, u, hjoin, hu, hua, hl, ?_, ?_, ?_, rfl⟩).symm
        · exact Bool.not_eq_false _ ▸ hagree
        · exact Int.le_trans h₃.clock (Int.le_trans hi₃ (Int.not_lt.mp hlate))
        · exact not_not.mp hspent

/-- **Verification is atomic.** In every interleaving on a clock that does not
run backwards, a finished `verify_bearer` answered what the link was worth right
after one of its own actions, unless its answer depends on no store. -/
theorem verification_linearizable (P : Portal) (pool : PortalPool) (ms : List PortalMove)
    (hcalls : pool.calls = []) (hclock : pool.Admits (PortalCall.verb P) Forward ms) (j : Nat)
    (c : Call portalSig Halt Reply PortalCall) (link : String) (o : Except Halt Reply)
    (hc : (pool.play (PortalCall.verb P) ms).calls[j]? = some c)
    (htag : c.tag = .request (.verifyBearer link)) (ho : c.outcome = some o) :
    ∃ r : Except Halt PortalPrincipal, o = r.map .principal ∧
      (Storeless P link r ∨
        pool.Sometime (PortalCall.verb P) ms j fun w => r = granted (P.grant link w.clock w.db)) := by
  have hbody : ∀ w, LinearVerb
      (fun o w => ∃ r : Except Halt PortalPrincipal, Worth P link r w ∧ o = r.map Reply.principal)
      (fun o => ∃ r : Except Halt PortalPrincipal, Storeless P link r ∧ o = r.map Reply.principal)
      (reply (P.verifyBearer link) .principal) w := fun w =>
    (verifyBearer_linear P link w).bind (fun r o => o = r.map Reply.principal) (fun _ => rfl) fun _ => rfl
  rcases linear_played hbody hcalls hclock hc htag ho
    with ⟨r, hr, rfl⟩ | ⟨ms₁, i, ms₂, d, hms, hd, hlive, r, hr, rfl⟩
  · exact ⟨r, rfl, .inl hr⟩
  · exact ⟨r, rfl, .inr ⟨ms₁, i, ms₂, d, hms, hd, hlive, hr⟩⟩

namespace Probe

/-- A verification, with a revocation of its principal between its two reads. -/
def contested : List PortalMove :=
  [.start (.request (.verifyBearer bearerLink)), .start (.request (.revokeAccess (uuid 2) "gone" "officer")),
    .step 0 env, .step 1 env, .step 0 env, .step 0 env]

end Probe

theorem serve_verifyBearer (P : Portal) (link : String) :
    PortalCall.verb P (.request (.verifyBearer link)) = reply (P.verifyBearer link) .principal := rfl

theorem Probe.contested_run :
    ((stage admitted).play (PortalCall.verb portal) contested).calls[0]?.bind endOf =
      some (.inl (.err .credentialRefused)) ∧
    (stage admitted).Admits (PortalCall.verb portal) Forward contested := by
  rw [contested.eq_1]
  simp -implicitDefEqProofs only [Pool.play_cons, Pool.next_start, Pool.Admits]
  rw [serve_verifyBearer, Portal.verifyBearer.eq_1, parse_bearerLink]
  decide +kernel

theorem verification_linearizable_probe :
    ∃ r : Except Halt PortalPrincipal, (.error (.err .credentialRefused) : Except Halt Reply) = r.map .principal ∧
      (Storeless Probe.portal Probe.bearerLink r ∨
        (Probe.stage Probe.admitted).Sometime (PortalCall.verb Probe.portal) Probe.contested 0 fun w =>
          r = granted (Probe.portal.grant Probe.bearerLink w.clock w.db)) := by
  obtain ⟨c, hc, hend⟩ := Option.bind_eq_some_iff.mp Probe.contested_run.1
  exact verification_linearizable Probe.portal (Probe.stage Probe.admitted) Probe.contested rfl
    Probe.contested_run.2 0 c Probe.bearerLink _ hc (Pool.tag_of_started rfl hc) (Probe.endOf_halt hend)

/-! ## The door of the account routes -/

/-- The header a route reads its bearer from, and what it does for the principal. -/
def CustomerCall.door (P : Portal) : CustomerCall → Option (Option String × (PortalPrincipal → Verb Response))
  | .surface _ _ => none
  | .me authorization => some (authorization, fun principal =>
      answered (myDetails principal) (fun v => jsonResponse v.toJson) fun e => pure (P.portalErrorResponse e))
  | .updateMe authorization (.ok body) => some (authorization, fun principal =>
      match PortalDetailPatch.read body with
      | none =>
        pure (P.portalErrorResponse (.invalidInput "the patch body did not match the writable detail fields"))
      | some patch =>
        answered (updateMyDetails principal patch) (fun v => jsonResponse v.toJson) fun e =>
          pure (P.portalErrorResponse e))
  | .updateMe _ (.error _) => none
  | .accessHistory authorization => some (authorization, fun principal =>
      answered (myAccessHistory principal 50)
        (fun events => jsonResponse (.object [("events", .arr (events.map PortalAccessEvent.toJson))])) fun e =>
          pure (P.portalErrorResponse e))

section
variable {P : Portal} {call : CustomerCall} {authorization : Option String}
  {handler : PortalPrincipal → Verb Response}

theorem CustomerCall.verb_door (h : call.door P = some (authorization, handler)) :
    call.verb P = reply (P.authenticated authorization handler) .response := by
  cases call with
  | surface principal call => cases h
  | me authorization => cases h; rfl
  | updateMe authorization body =>
    cases body with
    | ok body => cases h; rfl
    | error rejection => cases h
  | accessHistory authorization => cases h; rfl

/-- The presented bearer is worth a principal for whom the handler can answer so. -/
def Earned (P : Portal) (authorization : Option String) (handler : PortalPrincipal → Verb Response)
    (o : Except Halt Response) (w : World) : Prop :=
  ∃ link p, presentedBearer authorization = some link ∧ P.grant link w.clock w.db = some p ∧
    (handler p).Comes o

/-- What the route answers once the verification has come to `r`. -/
structure Leads (handler : PortalPrincipal → Verb Response) (r : Except Halt (Except Halt PortalPrincipal))
    (o : Except Halt Response) : Prop where
  admitted : ∀ p, r = .ok (.ok p) → (handler p).Comes o
  turned : ∀ e, r = .ok (.error (.err e)) → o = .ok BackbonePortal.refused
  halted : ∀ h, r = .ok (.error h) → (∀ e, h ≠ .err e) → o = .error h

theorem leads_admitted {p : PortalPrincipal} {o : Except Halt Response} (ho : (handler p).Comes o) :
    Leads handler (.ok (.ok p)) o where
  admitted p' h := by
    cases h
    exact ho
  turned e h := by cases h
  halted h hr := by cases hr

theorem leads_turned (e : PortalError) : Leads handler (.ok (.error (.err e))) (.ok refused) where
  admitted p h := by cases h
  turned e' _ := rfl
  halted h hr hne := by
    cases hr
    exact absurd rfl (hne e)

theorem leads_halted {h : Halt} (hne : ∀ e, h ≠ .err e) : Leads handler (.ok (.error h)) (.error h) where
  admitted p hr := by cases hr
  turned e hr := by
    cases hr
    exact absurd rfl (hne e)
  halted h' hr _ := by
    cases hr
    rfl

theorem leads_error (e : Halt) : Leads handler (.error e) (.error e) where
  admitted p h := by cases h
  turned e' h := by cases h
  halted h hr := by cases hr

theorem authenticated_linear (w : World) :
    LinearVerb (fun o w => o = .ok refused ∨ Earned P authorization handler o w) (fun o => o = .ok refused)
      (P.authenticated authorization handler) w := by
  unfold Portal.authenticated Portal.bearerPrincipal
  cases hpresented : presentedBearer authorization with
  | none => exact rfl
  | some link =>
    have hverify : LinearVerb _ _ (P.verifyBearer link).attempt w := (verifyBearer_linear P link w).attempt
    simp only [Prog.bind_eq, Prog.bind_assoc]
    -- what the verification came to decides the rest
    refine ((hverify.bind (Leads handler) (fun r => ?_) fun e => ?_).mono fun o w' h => ?_).weaken fun o h => ?_
    · cases r with
      | ok p => exact (Prog.ends_comes _).mono fun o ho => leads_admitted ho
      | error halt =>
        cases halt with
        | err e => cases e <;> exact leads_turned _
        | event name message => exact leads_halted fun e he => by cases he
        | panicked message => exact leads_halted fun e he => by cases he
    · exact leads_error e
    · obtain ⟨_, ⟨r, rfl, hworth⟩, hleads⟩ := h
      unfold Worth at hworth
      cases hg : P.grant link w'.clock w'.db with
      | none =>
        rw [hg] at hworth
        subst hworth
        exact .inl (hleads.turned _ rfl)
      | some p =>
        rw [hg] at hworth
        subst hworth
        exact .inr ⟨link, p, hpresented, hg, hleads.admitted p rfl⟩
    · obtain ⟨_, ⟨r, rfl, hstoreless⟩, hleads⟩ := h
      rcases hstoreless with ⟨e, rfl⟩ | ⟨-, rfl⟩ | ⟨-, rfl⟩
      · exact hleads.turned _ rfl
      · exact hleads.turned _ rfl
      · exact hleads.turned _ rfl

end

namespace Probe

def header : Option String := some ("Bearer " ++ bearerLink)

/-- A read of the account, while the principal's address is being onboarded. -/
def readings : List PortalMove :=
  [.start (.customer (.me header)), .start (.request (.handle (lifecycle userCreated))), .step 0 env, .step 1 env,
    .step 0 env, .step 0 env, .step 0 env, .step 1 env, .step 0 env]

theorem bearerMac_digits : ∀ c ∈ bearerMac.toList, ∃ d < 16, c = digitOf d := by
  have hall : bearerMac.toList.all (fun c => (List.range 16).any fun d => c = digitOf d) = true := by decide +kernel
  intro c hc
  obtain ⟨d, hd, he⟩ := List.any_eq_true.mp (List.all_eq_true.mp hall c hc)
  exact ⟨d, List.mem_range.mp hd, of_decide_eq_true he⟩

theorem presented_header : presentedBearer header = some bearerLink :=
  presentedBearer_renderLink (fun _ => mem_nonceOf) bearerMac_digits

end Probe

theorem serve_me (P : Portal) (authorization : Option String) :
    PortalCall.verb P (.customer (.me authorization)) = reply (P.me authorization) .response := rfl

theorem Probe.readings_run :
    ((stage admitted).play (PortalCall.verb portal) readings).calls[0]?.bind endOf = some (.inr 200) ∧
    (stage admitted).Admits (PortalCall.verb portal) Forward readings := by
  rw [readings.eq_1]
  simp -implicitDefEqProofs only [Pool.play_cons, Pool.next_start, Pool.Admits]
  rw [serve_me, Portal.me.eq_1, Portal.authenticated.eq_1, Portal.bearerPrincipal.eq_1, presented_header]
  dsimp only
  rw [Portal.verifyBearer.eq_1, parse_bearerLink]
  decide +kernel

end BackbonePortal
