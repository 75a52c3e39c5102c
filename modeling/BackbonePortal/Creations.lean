import BackbonePortal.LinkReach
import BackbonePortal.Tallies
import BackbonePortal.Trail

/-!
# The rows of a creation

Concurrent signups: the one that inserted the principal records it, and so does
every other one that lost its insert and then found the winner.
-/

namespace BackbonePortal

open Proc Tables

structure SignupCall where
  email : String
  presented : String
  ip : String

def Portal.serveSignup (P : Portal) (t : SignupCall) : Verb (Uuid × String) := P.signup t.email t.presented t.ip

/-! ## The events -/

abbrev AuditEvent.Creates (user : Uuid) : AuditEvent → Bool := AuditEvent.Is "signup_created" user

def inserts (user : Uuid) : Event portalSig → Bool
  | ⟨.sql (.insertSignup _ _), .ok (some id)⟩ => id = user
  | _ => false

def conflicts : Event portalSig → Bool
  | ⟨.sql (.insertSignup _ _), .ok none⟩ => true
  | _ => false

def finds (user : Uuid) : Event portalSig → Bool
  | ⟨.sql (.liveUserByEmail _), .ok (some (id, _))⟩ => id = user
  | _ => false

def lostTo (user : Uuid) : List (Event portalSig) → Bool
  | [] => false
  | ev :: evs => (conflicts ev && evs.any (finds user)) || lostTo user evs

/-- The principal the call goes on with after its insert. -/
def resolves (user : Uuid) (evs : List (Event portalSig)) : Bool := evs.any (inserts user) || lostTo user evs

theorem lostTo_append (user : Uuid) (evs evs' : List (Event portalSig)) :
    lostTo user (evs ++ evs') =
      (lostTo user evs || (evs.any conflicts && evs'.any (finds user)) || lostTo user evs') := by
  induction evs with
  | nil => simp [lostTo]
  | cons ev evs ih =>
    simp only [List.cons_append, lostTo, ih, List.any_append, List.any_cons]
    cases conflicts ev <;> cases evs.any (finds user) <;> cases evs.any conflicts <;>
      cases evs'.any (finds user) <;> simp

/-! ## What a signup does -/

def Act.Uncreating : Act → Prop
  | .sql (.insertSignup ..) => False
  | .sql (.redeemInvite ..) => False
  | .sql (.appendAudit event) => event.action ≠ "signup_created"
  | _ => True

def Act.Closing (a : Act) : Prop := a.Uncreating ∧ ∀ email, a ≠ .sql (.liveUserByEmail email)

section
variable {user : Uuid} {evs evs' : List (Event portalSig)}

theorem uncreating_idle (user : Uuid) {ev : Event portalSig} (h : ev.act.Uncreating) :
    appends (AuditEvent.Creates user) ev = false ∧ inserts user ev = false ∧ conflicts ev = false := by
  obtain ⟨a, r⟩ := ev
  cases a with
  | sql q =>
    cases q with
    | insertSignup id email => exact h.elim
    | appendAudit event =>
      refine ⟨?_, rfl, rfl⟩
      cases r with
      | error e => rfl
      | ok _ =>
        have hne : event.action ≠ "signup_created" := h
        exact is_other hne
    | _ => exact ⟨rfl, rfl, rfl⟩
  | _ => exact ⟨rfl, rfl, rfl⟩

theorem uncreating_before (user : Uuid) (h : ∀ ev ∈ evs, ev.act.Uncreating) :
    evs.countP (appends (AuditEvent.Creates user)) = 0 ∧ evs.any (inserts user) = false ∧
      evs.any conflicts = false ∧
      lostTo user evs = false := by
  refine ⟨List.countP_eq_zero.mpr fun ev hev => ?_, List.any_eq_false.mpr fun ev hev => ?_,
    List.any_eq_false.mpr fun ev hev => ?_, ?_⟩
  · simp [(uncreating_idle user (h ev hev)).1]
  · simp [(uncreating_idle user (h ev hev)).2.1]
  · simp [(uncreating_idle user (h ev hev)).2.2]
  · induction evs with
    | nil => rfl
    | cons ev evs ih =>
      rw [lostTo, (uncreating_idle user (h ev List.mem_cons_self)).2.2,
        ih fun e he => h e (List.mem_cons_of_mem _ he)]
      rfl

theorem closing_finds (user : Uuid) (h : ∀ ev ∈ evs, ev.act.Closing) : evs.any (finds user) = false := by
  apply List.any_eq_false.mpr
  intro ev hev
  obtain ⟨a, r⟩ := ev
  cases a with
  | sql q =>
    cases q with
    | liveUserByEmail email => exact absurd rfl ((h _ hev).2 email)
    | _ => exact Bool.false_ne_true
  | _ => exact Bool.false_ne_true

end

/-- The call records its creation once, and does not lose to its own insert. -/
structure Tallied (user : Uuid) (evs : List (Event portalSig)) : Prop where
  rows : evs.countP (appends (AuditEvent.Creates user)) = (resolves user evs).toNat
  apart : (evs.any (inserts user) && lostTo user evs) = false

section
variable {user : Uuid} {evs evs' : List (Event portalSig)}

theorem tallied_idle (h : ∀ ev ∈ evs, ev.act.Uncreating) : Tallied user evs := by
  obtain ⟨hrows, hins, -, hlost⟩ := uncreating_before user h
  exact ⟨by rw [hrows, resolves, hins, hlost]; rfl, by rw [hins]; rfl⟩

theorem tallied_after (h : ∀ ev ∈ evs, ev.act.Uncreating) (h' : Tallied user evs') :
    Tallied user (evs ++ evs') := by
  obtain ⟨hrows, hins, hconf, hlost⟩ := uncreating_before user h
  have hlost' : lostTo user (evs ++ evs') = lostTo user evs' := by
    rw [lostTo_append, hlost, hconf]
    rfl
  constructor
  · rw [List.countP_append, hrows, Nat.zero_add, h'.rows, resolves, resolves,
      List.any_append, hins, hlost', Bool.false_or]
  · rw [List.any_append, hins, hlost', Bool.false_or]
    exact h'.apart

end

section
variable {P : Portal} {α : Type}

theorem audit_uncreating {action actor : String} {user invite token : Option Uuid} {detail : Json}
    (h : action ≠ "signup_created") :
    (audit action user invite token actor detail).All Act.Uncreating := all_query h

theorem mintBearer_closing (user : Uuid) (ttl : Int) : (P.mintBearer user ttl).All Act.Closing := by
  refine .bind (all_ofExcept _) fun _ => .bind (all_step ⟨trivial, fun _ => nofun⟩) fun _ => ?_
  refine .bind (all_step ⟨trivial, fun _ => nofun⟩) fun _ =>
    .bind (all_step ⟨trivial, fun _ => nofun⟩) fun _ => ?_
  refine .bind all_lifetime fun _ => .bind (all_query ⟨trivial, fun _ => nofun⟩) fun _ => ?_
  exact .bind (all_query ⟨show "bearer_minted" ≠ "signup_created" by decide, fun _ => nofun⟩)
    fun _ => all_ofExcept _

theorem mintBearer_uncreating (user : Uuid) (ttl : Int) : (P.mintBearer user ttl).All Act.Uncreating :=
  (mintBearer_closing user ttl).mono fun _ h => h.1

theorem registerNow_uncreating (key : String) : (registerNow key).All Act.Uncreating :=
  ⟨trivial, fun _ => ⟨trivial, fun _ => trivial⟩⟩

theorem checkNow_uncreating (key : String) : (checkNow key).All Act.Uncreating :=
  ⟨trivial, fun _ => all_checkKey trivial⟩

theorem refuseLogin_uncreating (user : Option Uuid) (idKey ipKey : String) (detail : Json) :
    (Portal.refuseLogin user idKey ipKey detail : Verb α).All Act.Uncreating := by
  refine (registerNow_uncreating idKey).bind fun _ => (registerNow_uncreating ipKey).bind fun _ => ?_
  exact (audit_uncreating (by decide)).bind fun _ => trivial

theorem succeedLogin_uncreating (user : Uuid) (idKey ipKey : String) {event : String}
    (h : event ≠ "signup_created") :
    (P.succeedLogin user idKey ipKey event).All Act.Uncreating := by
  refine .bind (all_step trivial) fun _ => .bind (all_step trivial) fun _ =>
    .bind (all_step trivial) fun _ => ?_
  exact .bind (mintBearer_uncreating _ _) fun _ => .bind (audit_uncreating h) fun _ => trivial

theorem verifyAndMint_uncreating (email presented ip : String) {event : String} (h : event ≠ "signup_created") :
    (P.verifyAndMint email presented ip event).All Act.Uncreating := by
  refine .bind (all_step trivial) fun now => .bind (all_checkKey trivial) fun _ =>
    .bind (all_checkKey trivial) fun _ => ?_
  refine .bind (all_query trivial) fun found => ?_
  split
  · exact refuseLogin_uncreating _ _ _ _
  split
  · exact refuseLogin_uncreating _ _ _ _
  refine .bind (all_step trivial) fun verdict => ?_
  split
  · exact succeedLogin_uncreating _ _ _ h
  · exact refuseLogin_uncreating _ _ _ _
  · trivial
  · exact (audit_uncreating (by decide)).bind fun _ => trivial

abbrev Tallies (user : Uuid) (p : Verb α) : Prop := p.Told Written fun evs _ => Tallied user evs

theorem tallies_idle {user : Uuid} {p : Verb α} (hp : p.All Act.Uncreating) : Tallies user p :=
  (Prog.told_all hp).mono fun _ _ h => tallied_idle h

theorem tallies_after {β : Type} {user : Uuid} {p : Verb β} {f : β → Verb α} (hp : p.All Act.Uncreating)
    (hf : ∀ b, Tallies user (f b)) : Tallies user (p.bind f) :=
  (Prog.told_all hp).bind hf (fun _ _ _ _ h h' => tallied_after h h') fun _ _ h => tallied_idle h

theorem told_creation (id : Uuid) (f : String → Verb α) (hf : ∀ b, (f b).All Act.Closing)
    (R : List (Event portalSig) → Prop)
    (hR : ∀ event evs, (∀ user, AuditEvent.Creates user event = decide (id = user)) →
      (∀ ev ∈ evs, ev.act.Closing) → R (⟨.sql (.appendAudit event), .ok ()⟩ :: evs)) :
    (((audit "signup_created" (some id) none none "recipient" (.object [])).bind fun _ =>
      (P.mintBearer id defaultBearerTtlHours).bind f).Told Written fun evs _ => R evs) := by
  apply Prog.told_act
  intro r hr
  cases hr
  exact (Prog.told_all ((mintBearer_closing id _).bind hf)).mono fun evs _ h => hR _ evs (fun user => is_row) h

theorem createPrincipal_tallies (user : Uuid) (email : String) : Tallies user (P.createPrincipal email) := by
  intro id _ r _
  cases r with
  | error e => exact ⟨rfl, rfl⟩
  | ok inserted =>
    cases inserted with
    | some id =>
      refine told_creation id (fun bearer => .ret (id, bearer)) (fun _ => trivial) _
        fun event evs hevent h => ?_
      have hfinds := closing_finds user h
      obtain ⟨hrows, hins, hconf, hlost⟩ := uncreating_before user fun ev hev => (h ev hev).1
      constructor
      · by_cases hid : id = user
        · simp [resolves, inserts, appends, hevent, hid, hrows]
        · simp [resolves, inserts, appends, conflicts, lostTo, hevent, hid, hrows, hins, hlost]
      · simp [conflicts, lostTo, hlost]
    | none =>
      intro found _
      cases found with
      | error e => exact ⟨rfl, rfl⟩
      | ok found =>
        cases found with
        | none => exact ⟨rfl, rfl⟩
        | some row =>
          refine told_creation row.1 (fun bearer => .ret (row.1, bearer)) (fun _ => trivial)
            _ fun event evs hevent h => ?_
          have hfinds := closing_finds user h
          obtain ⟨hrows, hins, hconf, hlost⟩ := uncreating_before user fun ev hev => (h ev hev).1
          constructor
          · by_cases hid : row.1 = user
            · simp [resolves, conflicts, finds, lostTo, appends, hevent, hid, hrows]
            · simp [resolves, inserts, conflicts, finds, lostTo, appends, hevent, hid,
                hrows, hins, hlost, hfinds]
          · simp [inserts, hins]

theorem signupFresh_tallies (user : Uuid) (email presented ip : String) :
    Tallies user (P.signupFresh email presented ip) := by
  refine tallies_after (checkNow_uncreating _) fun _ => tallies_after (checkNow_uncreating _) fun _ => ?_
  refine tallies_after (all_step trivial) fun verdict => ?_
  split
  · exact createPrincipal_tallies user email
  · exact tallies_idle
      ((registerNow_uncreating _).bind fun _ => (registerNow_uncreating _).bind fun _ => trivial)
  · exact tallies_idle trivial
  · exact tallies_idle ((audit_uncreating (by decide)).bind fun _ => trivial)

theorem signup_tallies (user : Uuid) (email presented ip : String) :
    Tallies user (P.signup email presented ip) := by
  unfold Portal.signup
  dsimp only
  split
  · exact tallies_idle trivial
  refine tallies_after (all_step trivial |>.bind fun r => by split <;> trivial) fun is_open => ?_
  cases is_open with
  | false => exact tallies_idle ((audit_uncreating (by decide)).bind fun _ => trivial)
  | true =>
    refine tallies_after (all_query trivial) fun found => ?_
    split
    · split
      · exact tallies_idle trivial
      · exact tallies_idle (verifyAndMint_uncreating _ _ _ (by decide))
    · exact signupFresh_tallies user _ _ _

end

/-! ## The inserts -/

def World.Stores (user : Uuid) (w : World) : Prop := (w.db.users.get user).isSome = true

def Inserts (user : Uuid) (ev : Event portalSig) : Prop := inserts user ev = true

instance (user : Uuid) : DecidablePred (Inserts user) := fun _ => inferInstanceAs (Decidable (_ = _))

instance (user : Uuid) : DecidablePred (World.Stores user) := fun _ => inferInstanceAs (Decidable (_ = _))

section
variable {user : Uuid} {a : Act} {i : Env} {w : World}

theorem stores_exec (h : w.Stores user) : World.Stores user (a.exec i w).2 := by
  obtain ⟨u, hu⟩ := Option.isSome_iff_exists.mp h
  obtain ⟨v, hv, -⟩ := (act_evolves a i w).users.get hu
  exact Option.isSome_iff_exists.mpr ⟨v, hv⟩

theorem Inserts.eq {ev : Event portalSig} (h : Inserts user ev) :
    ∃ id email, ev = ⟨.sql (.insertSignup id email), .ok (some user)⟩ := by
  unfold Inserts inserts at h
  split at h
  · cases of_decide_eq_true h
    exact ⟨_, _, rfl⟩
  · cases h

theorem inserts_fires (h : Inserts user ⟨a, (a.exec i w).1⟩) :
    ¬w.Stores user ∧ World.Stores user (a.exec i w).2 := by
  obtain ⟨id, email, he⟩ := h.eq
  cases a with
  | sql q =>
    obtain rfl : q = .insertSignup id email := Act.sql.inj (congrArg Event.act he)
    have hr : ((Stmt.insertSignup id email).answer i w.db).1 = .ok (some user) := eq_of_heq (Event.mk.inj he).2
    rcases exec_insertSignup (Stmt.answer_ok hr).2 with ⟨users, hi, hid, hdb⟩ | ⟨-, -, hid, -⟩
    · cases hid
      have hkey := Table.insert_get_self hi
      constructor
      · intro hs
        unfold World.Stores at hs
        rw [show w.db.users.get user = none from hkey.1] at hs
        cases hs
      · show (((Stmt.insertSignup user email).answer i w.db).2.users.get user).isSome = true
        rw [hdb]
        exact Option.isSome_iff_exists.mpr ⟨_, hkey.2⟩
    · cases hid
  | _ => cases congrArg Event.act he

theorem stores_made (ha : a.Plain) (h : World.Stores user (a.exec i w).2) :
    w.Stores user ∨ Inserts user ⟨a, (a.exec i w).1⟩ := by
  cases a with
  | sql q =>
    cases hr : (q.answer i w.db).1 with
    | error e =>
      left
      unfold World.Stores at h
      rwa [show ((Act.sql q).exec i w).2.db = w.db from Stmt.answer_error hr] at h
    | ok r =>
      have hexec := (Stmt.answer_ok hr).2
      obtain ⟨v, hv⟩ := Option.isSome_iff_exists.mp h
      obtain ⟨hmem, hkey⟩ := Table.get_eq_some.mp hv
      rcases user_origin hexec hmem with ⟨u, hu, hstep⟩ | ⟨id, email, rfl, hnone, rfl | ⟨invite, rfl⟩⟩
      · left
        exact Option.isSome_iff_exists.mpr ⟨u, Table.get_eq_some.mpr ⟨hu, hstep.id.symm.trans hkey⟩⟩
      · right
        rcases exec_insertSignup hexec with ⟨-, -, rfl, -⟩ | ⟨-, -, -, hdb⟩
        · cases hkey
          rw [show ((Act.sql (.insertSignup id email)).exec i w).1 = .ok (some id) from hr]
          exact decide_eq_true rfl
        · rw [show ((Act.sql (.insertSignup id email)).exec i w).2.db = w.db from hdb] at hmem
          exact absurd rfl (Table.get_eq_none.mp hnone _ hmem)
      · exact ha.elim
  | _ => exact .inl h

end

section
variable (P : Portal) {user : Uuid} {pool : Pool portalMachine Halt (Uuid × String) SignupCall}

theorem serveSignup_plain (t : SignupCall) : (P.serveSignup t).All Act.Plain :=
  signup_all P (fun _ h => h.basic.common.plain) (fun _ _ => trivial) _ _ _

theorem inserted_count (hcalls : pool.calls = []) (ms : List (Move portalMachine SignupCall)) :
    (pool.play P.serveSignup ms).calls.countP (fun c => c.past.any (inserts user)) =
      if (pool.play P.serveSignup ms).world.Stores user ∧ ¬pool.world.Stores user then 1 else 0 := by
  have hcount :=
    Pool.play_count (M := portalMachine) (F := World.Stores user) P.serveSignup (serveSignup_plain P)
    (fun a i w => inserts_fires) (fun a i w => stores_exec) (fun a i w ha h => stores_made ha h) hcalls ms
  have hdecide : inserts user = fun ev => decide (Inserts user ev) := funext fun ev => (Bool.decide_coe _).symm
  rw [hdecide, hcount]

end

/-! ## The winner of the race -/

/-- The action is not the lookup of a winner that is there. -/
def LosesNothing (c : Call portalSig Halt (Uuid × String) SignupCall) (a : Act) (w : World) : Prop :=
  match a with
  | .sql (.liveUserByEmail email) => c.past.any conflicts = true → w.db.principal email = none
  | _ => True

instance (c : Call portalSig Halt (Uuid × String) SignupCall) (a : Act) (w : World) :
    Decidable (LosesNothing c a w) := by
  unfold LosesNothing
  split <;> exact inferInstance

/-- No signup whose insert met a conflict finds a principal at its address. -/
def FindsNoWinner : Pool portalMachine Halt (Uuid × String) SignupCall → Move portalMachine SignupCall → Prop :=
  Pool.Next fun _ c a _ w => LosesNothing c a w

instance (pool : Pool portalMachine Halt (Uuid × String) SignupCall) (m : Move portalMachine SignupCall) :
    Decidable (FindsNoWinner pool m) := inferInstanceAs (Decidable (Pool.Next _ _ _))

def NobodyLost (pool : Pool portalMachine Halt (Uuid × String) SignupCall) : Prop :=
  ∀ (j : Nat) (c : Call portalSig Halt (Uuid × String) SignupCall), pool.calls[j]? = some c →
    ∀ user, lostTo user c.past = false

section
variable (P : Portal) {pool : Pool portalMachine Halt (Uuid × String) SignupCall}

theorem lostTo_concat {user : Uuid} {evs : List (Event portalSig)} {ev : Event portalSig} :
    lostTo user (evs ++ [ev]) = (lostTo user evs || (evs.any conflicts && finds user ev)) := by
  simp [lostTo_append, lostTo]

theorem finds_iff {user : Uuid} {email : String} {i : Env} {w : World} (hf : i.fault = none) :
    finds user ⟨.sql (.liveUserByEmail email), ((Act.sql (.liveUserByEmail email)).exec i w).1⟩ = true ↔
      ∃ u, w.db.principal email = some u ∧ u.id = user := by
  have hr : ((Act.sql (.liveUserByEmail email)).exec i w).1 =
    .ok ((w.db.principal email).map fun u => (u.id, u.status)) := by
    show ((Stmt.liveUserByEmail email).answer i w.db).1 = _
    rw [Stmt.answer_of_ok hf rfl]
  rw [hr]
  cases w.db.principal email with
  | none => exact ⟨fun h => (nomatch h), fun ⟨_, h, _⟩ => (nomatch h)⟩
  | some u => simp [finds]

theorem losesNothing_iff {c : Call portalSig Halt (Uuid × String) SignupCall} {a : Act} {i : Env} {w : World}
    (hf : i.fault = none) (hc : ∀ user, lostTo user c.past = false) :
    LosesNothing c a w ↔ ∀ user, lostTo user (c.past ++ [⟨a, (a.exec i w).1⟩]) = false := by
  simp only [lostTo_concat, hc, Bool.false_or, Bool.and_eq_false_imp]
  have other : (∀ user r, finds user ⟨a, r⟩ = false) → (True ↔ ∀ user, c.past.any conflicts = true →
      finds user ⟨a, (a.exec i w).1⟩ = false) := fun h => ⟨fun _ user _ => h user _, fun _ => trivial⟩
  cases a with
  | sql q =>
    cases q with
    | liveUserByEmail email =>
      constructor
      · intro h user hconf
        apply Bool.eq_false_iff.mpr
        intro hfinds
        obtain ⟨u, hu, -⟩ := (finds_iff hf).mp hfinds
        cases (h hconf).symm.trans hu
      · intro h hconf
        cases hp : w.db.principal email with
        | none => rfl
        | some u => cases (h u.id hconf).symm.trans ((finds_iff hf).mpr ⟨u, hp, rfl⟩)
    | _ => exact other fun _ _ => rfl
  | _ => exact other fun _ _ => rfl

theorem admits_iff_nobodyLost (hcalls : pool.calls = []) {ms : List (Move portalMachine SignupCall)}
    (hfree : ∀ m ∈ ms, Unfailing m) :
    pool.Admits P.serveSignup FindsNoWinner ms ↔ NobodyLost (pool.play P.serveSignup ms) := by
  refine Pool.admits_next_iff (A := fun _ c a _ w => LosesNothing c a w)
    (G := fun _ evs => ∀ user, lostTo user evs = false)
    (V := fun _ m => Unfailing m) P.serveSignup (fun _ _ => rfl) (fun _ evs ev h user => ?_)
    (fun Q j i c a k hf hc ha hpast => losesNothing_iff hf hpast) (by simp [hcalls])
    (Pool.admits_of_forall P.serveSignup (fun m hm _ => hfree m hm) pool)
  have hlost := h user
  rw [lostTo_concat, Bool.or_eq_false_iff] at hlost
  exact hlost.1

end

/-- **A creation is recorded once** exactly in the runs where no signup whose
insert met a conflict finds the winner of the race. -/
theorem creations_recorded_once_iff (P : Portal) (pool : Pool portalMachine Halt (Uuid × String) SignupCall)
    (ms : List (Move portalMachine SignupCall)) (hcalls : pool.calls = []) (hfree : ∀ m ∈ ms, Unfailing m)
    (hdone : ∀ c ∈ (pool.play P.serveSignup ms).calls, c.outcome.isSome = true) :
    (∀ user : Uuid, (pool.play P.serveSignup ms).world.db.rowsOf (AuditEvent.Creates user) =
      pool.world.db.rowsOf (AuditEvent.Creates user) +
        if (pool.play P.serveSignup ms).world.Stores user ∧ ¬pool.world.Stores user then 1 else 0) ↔
    pool.Admits P.serveSignup FindsNoWinner ms := by
  have hanswers : pool.Admits P.serveSignup (Pool.Answers fun _ => Written) ms := by
    refine Pool.admits_of_forall P.serveSignup (fun m hm Q j i c a k he hc ha => ?_) pool
    subst he
    exact written_answer (hfree _ hm)
  have hrows : ∀ user : Uuid, (pool.play P.serveSignup ms).world.db.rowsOf (AuditEvent.Creates user) =
      pool.world.db.rowsOf (AuditEvent.Creates user) +
        (pool.play P.serveSignup ms).calls.countP fun c => resolves user c.past := fun user =>
    Pool.play_due (T := fun w : World => w.db.rowsOf (AuditEvent.Creates user)) P.serveSignup (rowsOf_exec _)
      (fun t => (signup_tallies user t.email t.presented t.ip).mono fun _ _ h => h.rows) hcalls hanswers hdone
  have hsplit : ∀ user : Uuid, (pool.play P.serveSignup ms).calls.countP (fun c => resolves user c.past) =
      (pool.play P.serveSignup ms).calls.countP (fun c => c.past.any (inserts user)) +
        (pool.play P.serveSignup ms).calls.countP fun c => lostTo user c.past := by
    intro user
    simp only [← sum_map_toNat, ← List.sum_map_add]
    congr 1
    apply List.map_congr_left
    intro c hc
    obtain ⟨o, ho⟩ := Option.isSome_iff_exists.mp (hdone c hc)
    have hapart := (Pool.play_told P.serveSignup
      (fun t => signup_tallies user t.email t.presented t.ip) hcalls hanswers c hc o
      ho).apart
    unfold resolves
    cases hi : c.past.any (inserts user) with
    | false => simp
    | true =>
      rw [hi, Bool.true_and] at hapart
      rw [hapart]
      rfl
  rw [admits_iff_nobodyLost P hcalls hfree]
  simp only [hrows, hsplit, inserted_count P hcalls ms]
  constructor
  · intro h j c hc user
    have hzero : (pool.play P.serveSignup ms).calls.countP (fun c => lostTo user c.past) = 0 := by
      have := h user
      omega
    exact Bool.eq_false_iff.mpr (List.countP_eq_zero.mp hzero c (List.mem_of_getElem? hc))
  · intro h user
    have hzero : (pool.play P.serveSignup ms).calls.countP (fun c => lostTo user c.past) = 0 :=
      List.countP_eq_zero.mpr fun c hc => by
        obtain ⟨j, hj⟩ := List.getElem?_of_mem hc
        exact Bool.eq_false_iff.mp (h j c hj user)
    omega

namespace Probe

def registers (n : Nat) : List (Move portalMachine SignupCall) :=
  .start ⟨email, "secret", "10.0.0.1"⟩ :: List.replicate n (.step 0 env)

def registersToo (n : Nat) : List (Move portalMachine SignupCall) :=
  .start ⟨email, "secret", "10.0.0.1"⟩ :: List.replicate n (.step 1 { env with uuid := uuid 6, nonce := 6 })

def racing : List (Move portalMachine SignupCall) :=
  registers 7 ++ registersToo 7 ++ List.replicate 8 (.step 0 env) ++
    List.replicate 9 (.step 1 { env with uuid := uuid 6, nonce := 6 })

def oneByOne : List (Move portalMachine SignupCall) := registers 15 ++ registersToo 16

def open_ : Pool portalMachine Halt (Uuid × String) SignupCall := ⟨world opened, []⟩

end Probe

/-- Two signups of one address, one principal, two rows of its creation. -/
theorem creation_recorded_twice :
    (∀ m ∈ Probe.racing, Unfailing m) ∧
    (∀ c ∈ (Probe.open_.play Probe.portal.serveSignup Probe.racing).calls, c.outcome.isSome = true) ∧
    (Probe.open_.play Probe.portal.serveSignup Probe.racing).world.db.users.rows.map (·.id) = [Probe.uuid 2] ∧
    Probe.open_.world.db.rowsOf (AuditEvent.Creates (Probe.uuid 2)) = 0 ∧
    (Probe.open_.play Probe.portal.serveSignup Probe.racing).world.db.rowsOf
    (AuditEvent.Creates (Probe.uuid 2)) = 2 := by
  decide +kernel

theorem creations_recorded_once_iff_probe :
    (Probe.open_.play Probe.portal.serveSignup Probe.oneByOne).world.Stores (Probe.uuid 2) ∧
    ∀ user : Uuid,
      (Probe.open_.play Probe.portal.serveSignup Probe.oneByOne).world.db.rowsOf (AuditEvent.Creates user) =
      Probe.open_.world.db.rowsOf (AuditEvent.Creates user) +
        if (Probe.open_.play Probe.portal.serveSignup Probe.oneByOne).world.Stores user ∧
          ¬Probe.open_.world.Stores user
          then 1 else 0 :=
  ⟨by decide +kernel, (creations_recorded_once_iff Probe.portal Probe.open_ Probe.oneByOne rfl
    (by decide +kernel) (by decide +kernel)).mpr (by decide +kernel)⟩

end BackbonePortal
