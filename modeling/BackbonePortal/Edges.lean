import BackbonePortal.LinkReach
import BackbonePortal.Sweeps
import BackbonePortal.Tallies
import BackbonePortal.Trail

/-!
# Lifecycle edges

Deliveries and revocations in any order: a link is stamped once and a principal
is revoked once, because both updates ask for a row that is not done yet. The
audit rows follow the answers of these two statements.
-/

namespace BackbonePortal

open Proc Tables

/-- A delivery of an event, or a call of `revoke_access`. -/
inductive LifecycleCall where
  | deliver (env : Envelope)
  | revoke (user : Uuid) (reason actor : String)

def LifecycleCall.request : LifecycleCall → Request
  | .deliver env => .handle env
  | .revoke user reason actor => .revokeAccess user reason actor

def LifecycleCall.delivered : LifecycleCall → Bool
  | .deliver _ => true
  | .revoke .. => false

def Portal.serveLifecycle (P : Portal) (t : LifecycleCall) : Verb Reply := P.serve t.request

def Stamps (user : Uuid) : Event portalSig → Prop
  | ⟨.sql (.stampSapiens _ _), .ok (some id)⟩ => id = user
  | _ => False

instance (user : Uuid) : DecidablePred (Stamps user) := fun ev =>
  decidable_of_iff
    ((match ev with | ⟨.sql (.stampSapiens _ _), .ok (some id)⟩ => decide (id = user) | _ => false) = true) (by
      unfold Stamps
      split <;> simp)

def World.Linked (user : Uuid) (w : World) : Prop := ∃ u, w.db.users.get user = some u ∧ u.sapiensUserId ≠ none

def World.Revoked (user : Uuid) (w : World) : Prop := ∃ u, w.db.users.get user = some u ∧ u.status = .revoked

instance (user : Uuid) : DecidablePred (World.Linked user) := fun w =>
  decidable_of_iff ((w.db.users.get user).any (fun u => u.sapiensUserId.isSome) = true) (by
    simp [World.Linked, Option.any_eq_true, Option.isSome_iff_ne_none])

/-! ## The two updates -/

section
variable {user : Uuid} {a : Act} {i : Env} {w : World}

theorem stamps_fires (h : Stamps user ⟨a, (a.exec i w).1⟩) :
    ¬w.Linked user ∧ World.Linked user (a.exec i w).2 := by
  cases a with
  | sql q =>
    cases q with
    | stampSapiens sapiens email =>
      cases hr : ((Stmt.stampSapiens sapiens email).answer i w.db).1 with
      | error e =>
        rw [show ((Act.sql (.stampSapiens sapiens email)).exec i w).1 = .error e from hr] at h
        exact h.elim
      | ok r =>
        rw [show ((Act.sql (.stampSapiens sapiens email)).exec i w).1 = .ok r from hr] at h
        obtain ⟨users, hu, hans, hdb⟩ := Db.updateUsers_ok (Stmt.answer_ok hr).2
        cases r with
        | none => exact h.elim
        | some id =>
          obtain ⟨v, hv, hid⟩ := Option.map_eq_some_iff.mp hans.symm
          obtain rfl : v.id = user := hid.trans h
          obtain ⟨u, hget, hp, rfl, hget'⟩ := update_answered hu (List.mem_of_mem_head? hv)
          simp only [Bool.and_eq_true, decide_eq_true_eq, Option.isNone_iff_eq_none] at hp
          constructor
          · rintro ⟨x, hx, hlink⟩
            cases hget.symm.trans hx
            exact hlink hp.1.2
          · refine ⟨u.link sapiens i.now.stored, ?_, show some sapiens ≠ none from nofun⟩
            show ((Stmt.stampSapiens sapiens email).answer i w.db).2.users.get _ = _
            rw [hdb]
            exact hget'
    | _ => exact h.elim
  | _ => exact h.elim

theorem flips_fires (h : Flips user ⟨a, (a.exec i w).1⟩) :
    ¬w.Revoked user ∧ World.Revoked user (a.exec i w).2 := by
  cases a with
  | sql q =>
    cases q with
    | revokeUser id reason =>
      cases hr : ((Stmt.revokeUser id reason).answer i w.db).1 with
      | error e =>
        rw [show ((Act.sql (.revokeUser id reason)).exec i w).1 = .error e from hr] at h
        exact h.elim
      | ok r =>
        rw [show ((Act.sql (.revokeUser id reason)).exec i w).1 = .ok r from hr] at h
        obtain ⟨users, hu, hans, hdb⟩ := Db.updateUsers_ok (Stmt.answer_ok hr).2
        cases r with
        | none => exact h.elim
        | some email =>
          obtain rfl : id = user := h
          obtain ⟨v, hv, -⟩ := Option.map_eq_some_iff.mp hans.symm
          obtain ⟨u, hget, hp, rfl, hget'⟩ := update_answered hu (List.mem_of_mem_head? hv)
          simp only [Bool.and_eq_true, decide_eq_true_eq, ne_eq, decide_not,
            Bool.not_eq_true', decide_eq_false_iff_not] at hp
          have hid : userSchema.key (u.revoke reason i.now.stored) = id := hp.1.1
          rw [hid] at hget hget'
          constructor
          · rintro ⟨x, hx, hrevoked⟩
            cases hget.symm.trans hx
            exact hp.1.2 hrevoked
          · refine ⟨u.revoke reason i.now.stored, ?_, rfl⟩
            show ((Stmt.revokeUser id reason).answer i w.db).2.users.get _ = _
            rw [hdb]
            exact hget'
    | _ => exact h.elim
  | _ => exact h.elim

theorem linked_exec (h : w.Linked user) : World.Linked user (a.exec i w).2 := by
  obtain ⟨u, hu, hlink⟩ := h
  obtain ⟨s, hs⟩ := Option.ne_none_iff_exists'.mp hlink
  obtain ⟨v, hv, hkeeps⟩ := (act_evolves a i w).users.get hu
  exact ⟨v, hv, by rw [hkeeps.2.2.1 s hs]; exact nofun⟩

theorem revoked_exec (h : w.Revoked user) : World.Revoked user (a.exec i w).2 := by
  obtain ⟨u, hu, hrevoked⟩ := h
  obtain ⟨v, hv, hkeeps⟩ := (act_evolves a i w).users.get hu
  exact ⟨v, hv, (hkeeps.2.2.2 hrevoked).1⟩

theorem linked_made (h : World.Linked user (a.exec i w).2) :
    w.Linked user ∨ Stamps user ⟨a, (a.exec i w).1⟩ := by
  obtain ⟨v, hv, hlink⟩ := h
  cases a with
  | sql q =>
    cases hr : (q.answer i w.db).1 with
    | error e =>
      rw [show ((Act.sql q).exec i w).2.db = w.db from Stmt.answer_error hr] at hv
      exact .inl ⟨v, hv, hlink⟩
    | ok r =>
      have hexec := (Stmt.answer_ok hr).2
      obtain ⟨hmem, rfl⟩ := Table.get_eq_some.mp hv
      rcases user_origin hexec hmem with ⟨u, hu, hstep⟩ | ⟨id, email, rfl, -, -⟩
      · rcases hstep.link with hsame | ⟨sapiens, rfl, hnone, hlive, -⟩
        · exact .inl ⟨u, Table.get_eq_some.mpr ⟨hu, hstep.id.symm⟩, hsame ▸ hlink⟩
        · right
          have hans : r = some u.id := by
            obtain ⟨users, hans, -⟩ := @stampSapiens_answer u.email sapiens w.db i (Stmt.answer_ok hr).1
            rw [hans, Db.unlinked_of_mem hu hlive hnone] at hr
            cases hr
            rfl
          rw [show ((Act.sql (.stampSapiens sapiens u.email)).exec i w).1 = .ok (some u.id) from hans ▸ hr]
          exact hstep.id.symm
      · exact absurd rfl hlink
  | _ => exact .inl ⟨v, hv, hlink⟩

end

/-! ## What a call writes -/

def Undisturbed : Event portalSig → Prop
  | ⟨.sql (.appendAudit _), r⟩ => r = .ok ()
  | ⟨.sql (.revokeUserTokens _ reason), .error _⟩ => withinLength 120 reason = false
  | ⟨.sql (.revokePending _ reason), .error _⟩ => withinLength 120 reason = false
  | _ => True

theorem undisturbed_answer {a : Act} {i : Env} {w : World} (hf : i.fault = none) :
    Undisturbed ⟨a, (a.exec i w).1⟩ := by
  cases a with
  | sql q =>
    cases q with
    | appendAudit event => simp only [Act.exec, appendAudit_answer hf, Undisturbed]
    | revokeUserTokens user reason =>
      by_cases hreason : withinLength 120 reason = true
      · obtain ⟨n, tokens, hans, -⟩ := revokeUserTokens_answer w.db user hreason hf
        simp only [Act.exec, hans, Undisturbed]
      · cases hr : ((Stmt.revokeUserTokens user reason).answer i w.db).1 with
        | ok n => simp only [Act.exec, hr, Undisturbed]
        | error e => simpa only [Act.exec, hr, Undisturbed, Bool.not_eq_true] using hreason
    | revokePending email reason =>
      by_cases hreason : withinLength 120 reason = true
      · obtain ⟨n, invites, hans, -⟩ := revokePending_answer w.db email hreason hf
        simp only [Act.exec, hans, Undisturbed]
      · cases hr : ((Stmt.revokePending email reason).answer i w.db).1 with
        | ok n => simp only [Act.exec, hr, Undisturbed]
        | error e => simpa only [Act.exec, hr, Undisturbed, Bool.not_eq_true] using hreason
    | _ => trivial
  | _ => trivial

def linkAction : String := "onboarding_linked"

def revokeAction : String := "lifecycle_access_revoked"

/-- Neither of the two updates, and no audit row of theirs. -/
def Act.Aside : Act → Prop
  | .sql (.stampSapiens ..) => False
  | .sql (.revokeUser ..) => False
  | .sql (.appendAudit event) => event.action ≠ linkAction ∧ event.action ≠ revokeAction
  | _ => True

/-- A call that has answered `links` and `flips` has written as many rows. -/
structure Entries (user : Uuid) (evs : List (Event portalSig)) (links revokes stamps flips : Bool) : Prop where
  links : evs.countP (appends (AuditEvent.Is linkAction user)) = links.toNat
  revokes : evs.countP (appends (AuditEvent.Is revokeAction user)) = revokes.toNat
  stamps : (evs.any fun ev => decide (Stamps user ev)) = stamps
  flips : (evs.any fun ev => decide (Flips user ev)) = flips

section
variable {user : Uuid} {evs evs' : List (Event portalSig)}

theorem entries_nil : Entries user [] false false false false := ⟨rfl, rfl, rfl, rfl⟩

theorem entries_aside {ev : Event portalSig} (h : ev.act.Aside) :
    Entries user [ev] false false false false := by
  obtain ⟨a, r⟩ := ev
  cases a with
  | sql q =>
    cases q with
    | stampSapiens sapiens email => exact h.elim
    | revokeUser id reason => exact h.elim
    | appendAudit event =>
      cases r with
      | error e => exact ⟨rfl, rfl, rfl, rfl⟩
      | ok u => exact ⟨by simp [appends, is_other h.1], by simp [appends, is_other h.2], rfl, rfl⟩
    | _ => exact ⟨rfl, rfl, rfl, rfl⟩
  | _ => exact ⟨rfl, rfl, rfl, rfl⟩

theorem Entries.append {l r s f l' r' s' f' : Bool} (h : Entries user evs l r s f)
    (h' : Entries user evs' l' r' s' f')
    (hl : (l && l') = false) (hr : (r && r') = false) :
    Entries user (evs ++ evs') (l || l') (r || r') (s || s') (f || f') := by
  constructor
  · rw [List.countP_append, h.links, h'.links]
    cases l <;> cases l' <;> first | rfl | cases hl
  · rw [List.countP_append, h.revokes, h'.revokes]
    cases r <;> cases r' <;> first | rfl | cases hr
  · rw [List.any_append, h.stamps, h'.stamps]
  · rw [List.any_append, h.flips, h'.flips]

theorem entries_all_aside (h : ∀ ev ∈ evs, ev.act.Aside) : Entries user evs false false false false := by
  induction evs with
  | nil => exact entries_nil
  | cons ev evs ih =>
    exact (entries_aside (h ev List.mem_cons_self)).append
      (ih fun e he => h e (List.mem_cons_of_mem _ he)) rfl rfl

end

section
variable (P : Portal) {user : Uuid}

theorem sweepAccess_aside (id : Uuid) (email reason actor : String) :
    (sweepAccess id email reason actor).All Act.Aside := by
  unfold sweepAccess revokeAllBearers
  refine .bind (.bind (all_query trivial) fun n => ?_) fun _ => .bind (all_query trivial) fun _ => trivial
  split
  · exact .bind (all_query
      ⟨show "bearer_revoked" ≠ linkAction by decide, show "bearer_revoked" ≠ revokeAction by decide⟩)
      fun _ => trivial
  · trivial

def SweptThrough (reason : String) (o : Except Halt Bool) : Prop :=
  o = .ok true ∨ withinLength 120 reason = false ∧ ∃ e, o = .error e

theorem sweepAccess_told (id : Uuid) (email reason actor : String) :
    (sweepAccess id email reason actor).Told Undisturbed fun _ o => SweptThrough reason o := by
  have pending :
      ((query (.revokePending email reason)).bind fun _ => (Prog.ret true : Verb Bool)).Told Undisturbed
      fun _ o => SweptThrough reason o := told_query (fun n hn => .inl rfl) fun e he => .inr ⟨he, _, rfl⟩
  unfold sweepAccess revokeAllBearers
  simp only [Prog.bind_eq, Prog.bind_assoc]
  refine told_query (fun n hn => ?_) fun e he => .inr ⟨he, _, rfl⟩
  split
  · rw [Prog.bind_assoc]
    refine told_query (R := fun _ o => SweptThrough reason o) (fun u hu => pending) fun e he => ?_
    cases he
  · exact pending

theorem flips_answer {id : Uuid} {reason email : String} :
    ([⟨.sql (.revokeUser id reason), .ok (some email)⟩].any fun ev => decide (Flips user ev)) =
    decide (id = user) := by
  rw [List.any_cons, List.any_nil, Bool.or_false]
  exact decide_eq_decide.mpr Iff.rfl

theorem stamps_answer {id sapiens : Uuid} {email : String} :
    ([⟨.sql (.stampSapiens sapiens email), .ok (some id)⟩].any fun ev => decide (Stamps user ev)) =
    decide (id = user) := by
  rw [List.any_cons, List.any_nil, Bool.or_false]
  exact decide_eq_decide.mpr Iff.rfl

def AnsweredTrue {ε : Type} (o : Except ε Bool) : Bool := o.toOption.getD false

theorem revokeAccess_told (user id : Uuid) (reason actor : String) :
    (revokeAccess id reason actor).Told Undisturbed fun evs o => ∃ flipped,
    Entries user evs false false false flipped ∧
      (flipped = (AnsweredTrue o && decide (id = user)) ∨ withinLength 120 reason = false ∧
        AnsweredTrue o = false) := by
  refine told_query (fun found _ => ?_) fun e _ => ⟨false, ⟨rfl, rfl, rfl, rfl⟩, .inl rfl⟩
  cases found with
  | none => exact ⟨false, ⟨rfl, rfl, rfl, rfl⟩, .inl rfl⟩
  | some email =>
    have hflip : Entries user [⟨.sql (.revokeUser id reason), .ok (some email)⟩] false
      false false (decide (id = user)) :=
      ⟨rfl, rfl, rfl, flips_answer⟩
    refine ((Prog.told_all (sweepAccess_aside id email reason actor)).and
      (sweepAccess_told id email reason actor)).mono fun evs o h => ?_
    refine ⟨decide (id = user), by simpa using hflip.append (entries_all_aside h.1) rfl rfl, ?_⟩
    rcases h.2 with rfl | ⟨hreason, e, rfl⟩
    · exact .inl rfl
    · exact .inr ⟨hreason, rfl⟩

theorem lifecycleAudit_told {label action : String} {env : Envelope} {id : Option Uuid} {sapiens : Uuid} :
    (P.lifecycleAudit label action env id sapiens).Told Undisturbed fun evs _ =>
      evs = [⟨.sql (.appendAudit (lifecycleEvent action env id sapiens)), .ok ()⟩] := by
  intro r hr
  cases hr
  rfl

theorem entries_links {env : Envelope} {id sapiens : Uuid} {email : String} :
    Entries user [⟨.sql (.stampSapiens sapiens email), .ok (some id)⟩,
      ⟨.sql (.appendAudit (lifecycleEvent linkAction env (some id) sapiens)), .ok ()⟩]
      (decide (id = user)) false (decide (id = user)) false := by
  refine ⟨?_, rfl, ?_, rfl⟩
  · rw [List.countP_cons_of_neg (by exact Bool.false_ne_true), List.countP_singleton]
    simp only [appends, lifecycleEvent, is_row]
    cases decide (id = user) <;> rfl
  · exact stamps_answer

theorem entries_revokes {env : Envelope} {id sapiens : Uuid} :
    Entries user [⟨.sql (.appendAudit (lifecycleEvent revokeAction env (some id) sapiens)), .ok ()⟩]
      false (decide (id = user)) false false := by
  refine ⟨rfl, ?_, rfl, rfl⟩
  rw [List.countP_singleton]
  simp only [appends, lifecycleEvent, is_row]
  cases decide (id = user) <;> rfl

theorem onCreated_told (env : Envelope) :
    (P.onCreated env).Told Undisturbed fun evs _ => ∃ stamped,
    Entries user evs stamped false stamped false := by
  unfold Portal.onCreated
  split
  · exact ⟨false, entries_nil⟩
  split
  · exact ⟨false, entries_nil⟩
  next sapiens _ =>
  refine told_busQuery (fun found _ => ?_) fun e _ => ⟨false, rfl, rfl, rfl, rfl⟩
  cases found with
  | some id =>
    refine (lifecycleAudit_told P).mono fun evs _ h => ⟨decide (id = user), ?_⟩
    subst h
    exact entries_links
  | none =>
    refine (lifecycleAudit_told P).mono fun evs _ h => ⟨false, ?_⟩
    subst h
    exact ⟨rfl, rfl, rfl, rfl⟩

theorem onUserGone_told (env : Envelope) (hgone : env.eventType ∈ userGone) :
    (P.onUserGone env).Told Undisturbed fun evs _ => ∃ flipped,
    Entries user evs false flipped false flipped := by
  unfold Portal.onUserGone
  split
  · exact ⟨false, entries_nil⟩
  split
  · exact ⟨false, entries_nil⟩
  next sapiens _ =>
  refine told_busQuery (fun found _ => ?_) fun e _ => ⟨false, rfl, rfl, rfl, rfl⟩
  cases found with
  | none => exact ⟨false, rfl, rfl, rfl, rfl⟩
  | some id =>
    have hrevoke : ((revokeAccess id ("lifecycle:" ++ env.eventType) "lifecycle").mapErr
      (P.busError "revocation arm")).Told
        Undisturbed fun evs o => Entries user evs false false false (AnsweredTrue o && decide (id = user)) := by
      refine ((revokeAccess_told user id _ _).mono fun evs o h => ?_).mapErr
      obtain ⟨flipped, hentries, rfl | ⟨hlong, -⟩⟩ := h
      · cases o <;> exact hentries
      · cases (gone_reason hgone).symm.trans hlong
    have hlook : Entries user [⟨.sql (.principalByLink sapiens), .ok (some id)⟩] false false false false :=
      ⟨rfl, rfl, rfl, rfl⟩
    refine hrevoke.bind
      (T := fun b evs _ => Entries user evs false (b && decide (id = user)) false false) (fun b => ?_)
      (fun evs b evs' o h h' => ?_) fun evs e h => ?_
    · cases b with
      | false => exact entries_nil
      | true => exact (lifecycleAudit_told P).mono fun evs _ h => by subst h; exact entries_revokes
    · refine ⟨b && decide (id = user), ?_⟩
      simpa [AnsweredTrue, Except.toOption] using hlook.append (h.append h' rfl rfl) rfl rfl
    · exact ⟨false, by simpa [AnsweredTrue, Except.toOption] using hlook.append h rfl rfl⟩

def LifecycleCall.Writes (user : Uuid) (t : LifecycleCall) (evs : List (Event portalSig))
    (o : Except Halt Reply) : Prop :=
  ∃ stamped flipped, Entries user evs stamped (t.delivered && flipped) stamped flipped ∧
    ∀ reason actor, t = .revoke user reason actor → o = .ok (.flag true) → flipped = true

theorem serveLifecycle_told (user : Uuid) (t : LifecycleCall) :
    (P.serveLifecycle t).Told Undisturbed (t.Writes user) := by
  cases t with
  | revoke id reason actor =>
    refine ((revokeAccess_told user id reason actor).mono fun evs o h => ?_).map
    obtain ⟨flipped, hentries, hflip⟩ := h
    refine ⟨false, flipped, hentries, fun reason' actor' he ho => ?_⟩
    cases he
    have htrue : AnsweredTrue o = true := by
      cases o with
      | error e => cases ho
      | ok b => cases ho; rfl
    rcases hflip with rfl | ⟨-, hfalse⟩
    · rw [htrue, decide_eq_true rfl]
      rfl
    · cases htrue.symm.trans hfalse
  | deliver env =>
    have hhandle : (P.handle env).Told Undisturbed fun evs _ =>
        ∃ stamped flipped, Entries user evs stamped flipped stamped flipped := by
      unfold Portal.handle
      split
      · exact (onCreated_told P env).mono fun evs _ ⟨stamped, h⟩ => ⟨stamped, false, h⟩
      split
      next hgone => exact (onUserGone_told P env hgone).mono fun evs _ ⟨flipped, h⟩ => ⟨false, flipped, h⟩
      next => exact ⟨false, false, entries_nil⟩
    refine (hhandle.mono fun evs o h => ?_).map
    obtain ⟨stamped, flipped, hentries⟩ := h
    exact ⟨stamped, flipped, by simpa [LifecycleCall.delivered] using hentries, fun _ _ he => nomatch he⟩

end

/-! ## The runs -/

/-- The call revoked the principal: an officer's `revoke_access` that returned
true, or a delivery whose own one did. -/
def ReturnedTrue (user : Uuid) (c : Call portalSig Halt Reply LifecycleCall) : Prop :=
  (∃ reason actor, c.tag = .revoke user reason actor ∧ c.outcome = some (.ok (.flag true))) ∨
    c.tag.delivered = true ∧ c.Did (Flips user)

theorem countP_and_le_one {α : Type} {f g : α → Bool} {l : List α} (h : l.countP f ≤ 1) :
    l.countP (fun x => g x && f x) = if ∃ x ∈ l, g x = true ∧ f x = true then 1 else 0 := by
  have hle : l.countP (fun x => g x && f x) ≤ l.countP f :=
    List.countP_mono_left fun x _ hx => (Bool.and_eq_true_iff.mp hx).2
  split
  next hex =>
    obtain ⟨x, hx, hg, hf⟩ := hex
    have hpos : 0 < l.countP fun x => g x && f x := List.countP_pos_iff.mpr ⟨x, hx, by rw [hg, hf]; rfl⟩
    omega
  next hno =>
    exact List.countP_eq_zero.mpr fun x hx hgf => hno ⟨x, hx, Bool.and_eq_true_iff.mp hgf⟩

section
variable (P : Portal) {pool : Pool portalMachine Halt Reply LifecycleCall}
    {ms : List (Move portalMachine LifecycleCall)}

theorem link_kept {user sapiens : Uuid} {u : PortalUser} (hu : pool.world.db.users.get user = some u)
    (hlink : u.sapiensUserId = some sapiens) (ms : List (Move portalMachine LifecycleCall)) :
    ∃ v, (pool.play P.serveLifecycle ms).world.db.users.get user = some v ∧ v.sapiensUserId = some sapiens := by
  refine Pool.play_world P.serveLifecycle (M := portalMachine)
    (I := fun w : World => ∃ v, w.db.users.get user = some v ∧ v.sapiensUserId = some sapiens)
    ?_ ⟨u, hu, hlink⟩ ms
  rintro a i w ⟨v, hv, hs⟩
  obtain ⟨x, hx, hkeeps⟩ := (act_evolves a i w).users.get hv
  exact ⟨x, hx, hkeeps.2.2.1 sapiens hs⟩

theorem lifecycle_answers (hfree : ∀ m ∈ ms, Unfailing m) (pool : Pool portalMachine Halt Reply LifecycleCall) :
    pool.Admits P.serveLifecycle (Pool.Answers fun _ => Undisturbed) ms := by
  refine Pool.admits_of_forall P.serveLifecycle (fun m hm Q j i c a k he hc ha => ?_) pool
  subst he
  exact undisturbed_answer (hfree _ hm)

variable (hcalls : pool.calls = []) (hfree : ∀ m ∈ ms, Unfailing m)
include hcalls

theorem flipped_once (user : Uuid) (ms : List (Move portalMachine LifecycleCall)) :
    (pool.play P.serveLifecycle ms).calls.countP (fun c => c.past.any fun ev => decide (Flips user ev)) ≤ 1 :=
  Pool.play_count_le (M := portalMachine) (F := World.Revoked user) P.serveLifecycle (fun _ _ _ => flips_fires)
    (fun _ _ _ => revoked_exec) hcalls ms

include hfree

theorem links_recorded (user : Uuid)
    (hdone : ∀ c ∈ (pool.play P.serveLifecycle ms).calls, c.outcome.isSome = true) :
    (pool.play P.serveLifecycle ms).world.db.rowsOf (AuditEvent.Is linkAction user) =
      pool.world.db.rowsOf (AuditEvent.Is linkAction user) +
        if (pool.play P.serveLifecycle ms).world.Linked user ∧ ¬pool.world.Linked user then 1 else 0 := by
  have hrows :=
    Pool.play_due (T := fun w : World => w.db.rowsOf (AuditEvent.Is linkAction user)) P.serveLifecycle
    (rowsOf_exec _) (fun t => (serveLifecycle_told P user t).mono fun evs o ⟨s, f, h, _⟩ =>
      show _ = (evs.any fun ev => decide (Stamps user ev)).toNat by rw [h.stamps]; exact h.links)
    hcalls (lifecycle_answers P hfree pool) hdone
  rw [hrows, Pool.play_count (M := portalMachine) (F := World.Linked user) P.serveLifecycle
    (fun t => Prog.all_true (P.serveLifecycle t)) (fun _ _ _ => stamps_fires) (fun _ _ _ => linked_exec)
    (fun _ _ _ _ => linked_made) hcalls ms]

theorem flips_recorded (user : Uuid)
    (hdone : ∀ c ∈ (pool.play P.serveLifecycle ms).calls, c.outcome.isSome = true) :
    (pool.play P.serveLifecycle ms).world.db.rowsOf (AuditEvent.Is revokeAction user) =
      pool.world.db.rowsOf (AuditEvent.Is revokeAction user) +
        if ∃ c ∈ (pool.play P.serveLifecycle ms).calls, c.tag.delivered = true ∧
          c.Did (Flips user) then 1 else 0 := by
  have hrows :=
    Pool.play_due (T := fun w : World => w.db.rowsOf (AuditEvent.Is revokeAction user)) P.serveLifecycle
    (rowsOf_exec _) (fun t => (serveLifecycle_told P user t).mono fun evs o ⟨s, f, h, _⟩ =>
      show _ = (t.delivered && evs.any fun ev => decide (Flips user ev)).toNat by rw [h.flips]; exact h.revokes)
    hcalls (lifecycle_answers P hfree pool) hdone
  rw [hrows, countP_and_le_one (g := fun c : Call portalSig Halt Reply LifecycleCall => c.tag.delivered)
    (flipped_once P hcalls user ms)]
  simp only [Call.did_iff_any]

theorem returnedTrue_flips {user : Uuid} {c : Call portalSig Halt Reply LifecycleCall}
    (hc : c ∈ (pool.play P.serveLifecycle ms).calls) (h : ReturnedTrue user c) : c.Did (Flips user) := by
  rcases h with ⟨reason, actor, htag, ho⟩ | ⟨-, hdid⟩
  · obtain ⟨s, f, hentries, hflip⟩ :=
      Pool.play_told P.serveLifecycle (serveLifecycle_told P user) hcalls
        (lifecycle_answers P hfree pool) c hc _ ho
    rw [Call.did_iff_any, hentries.flips]
    exact hflip reason actor htag rfl
  · exact hdid

end

/-- **Lifecycle edges fire once.** In every interleaving without failures of
deliveries and revocations: a link that is set stays; once all calls have
returned, a principal that was linked has one more `onboarding_linked` row, and
one that a delivery revoked has one more `lifecycle_access_revoked` row; and at
most one call revoked a principal. -/
theorem lifecycle_edges_fire_once (P : Portal) (pool : Pool portalMachine Halt Reply LifecycleCall)
    (ms : List (Move portalMachine LifecycleCall)) (hcalls : pool.calls = []) (hfree : ∀ m ∈ ms, Unfailing m) :
    (∀ ms₁ ms₂, ms = ms₁ ++ ms₂ → ∀ user u sapiens,
      (pool.play P.serveLifecycle ms₁).world.db.users.get user = some u → u.sapiensUserId = some sapiens →
        ∃ v, (pool.play P.serveLifecycle ms).world.db.users.get user = some v ∧
          v.sapiensUserId = some sapiens) ∧
    ((∀ c ∈ (pool.play P.serveLifecycle ms).calls, c.outcome.isSome = true) → ∀ user : Uuid,
      (pool.play P.serveLifecycle ms).world.db.rowsOf (AuditEvent.Is linkAction user) =
        pool.world.db.rowsOf (AuditEvent.Is linkAction user) +
          (if (pool.play P.serveLifecycle ms).world.Linked user ∧ ¬pool.world.Linked user then 1 else 0) ∧
      (pool.play P.serveLifecycle ms).world.db.rowsOf (AuditEvent.Is revokeAction user) =
        pool.world.db.rowsOf (AuditEvent.Is revokeAction user) +
          if ∃ c ∈ (pool.play P.serveLifecycle ms).calls, c.tag.delivered = true ∧
            c.Did (Flips user) then 1 else 0) ∧
    ∀ (user : Uuid) (j j' : Nat) (c c' : Call portalSig Halt Reply LifecycleCall),
      (pool.play P.serveLifecycle ms).calls[j]? = some c →
      (pool.play P.serveLifecycle ms).calls[j']? = some c' →
        ReturnedTrue user c → ReturnedTrue user c' → j = j' := by
  refine ⟨?_, fun hdone user =>
    ⟨links_recorded P hcalls hfree user hdone, flips_recorded P hcalls hfree user hdone⟩, ?_⟩
  · rintro ms₁ ms₂ rfl user u sapiens hu hlink
    rw [Pool.play_append]
    exact link_kept P hu hlink ms₂
  · intro user j j' c c' hj hj' hc hc'
    have honce := countP_le_one_iff.mp (flipped_once P hcalls user ms)
    exact honce j j' c c' hj hj'
      (Call.did_iff_any.mp (returnedTrue_flips P hcalls hfree (List.mem_of_getElem? hj) hc))
      (Call.did_iff_any.mp (returnedTrue_flips P hcalls hfree (List.mem_of_getElem? hj') hc'))

namespace Probe

def unserved : Pool portalMachine Halt Reply LifecycleCall := ⟨world enrolled, []⟩

def deliveries : List LifecycleCall :=
  [.deliver (lifecycle userCreated), .deliver (lifecycle userCreated),
    .deliver (lifecycle "sapiens.user.deleted"),
    .deliver (lifecycle "sapiens.user.deactivated")]

def rounds (n : Nat) : List (Move portalMachine LifecycleCall) :=
  (List.replicate n ((List.range 5).map fun j => .step j env)).flatten

def inTurns : List (Move portalMachine LifecycleCall) :=
  deliveries.map .start ++ rounds 1 ++ .start (.revoke (uuid 2) "offboarded" "officer") :: rounds 5

end Probe

theorem lifecycle_edges_fire_once_probe :
    (Probe.unserved.play Probe.portal.serveLifecycle Probe.inTurns).world.db.rowsOf
      (AuditEvent.Is linkAction (Probe.uuid 2)) = 1 ∧
    (Probe.unserved.play Probe.portal.serveLifecycle Probe.inTurns).world.db.rowsOf
      (AuditEvent.Is revokeAction (Probe.uuid 2)) = 1 := by
  have h := (lifecycle_edges_fire_once Probe.portal Probe.unserved Probe.inTurns rfl (by decide +kernel)).2.1
    (by decide +kernel) (Probe.uuid 2)
  rw [h.1, h.2]
  decide +kernel

end BackbonePortal
