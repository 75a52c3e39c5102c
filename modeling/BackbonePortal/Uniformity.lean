import BackbonePortal.InviteOneShot
import BackbonePortal.LinkReach
import BackbonePortal.Trail

/-!
# Refusals of a redemption

Up to its transaction `redeem` answers every refusal alike and has written
nothing. What it answers otherwise is a constraint met by one of its two
inserts: the principal of an address that has one already, and the bearer.
-/

namespace BackbonePortal

open Proc Tables

/-! ## The events of a redemption -/

def redeemed : Event portalSig → Bool
  | ⟨.sql (.redeemInvite ..), .ok done⟩ => done
  | _ => false

instance (perUnit n : Int) (now : Instant) : Decidable (Lasts perUnit n now) :=
  inferInstanceAs (Decidable (_ ∧ _))

/-- A constraint stops an insert, or the clock the mint that follows the
transaction. -/
def trips (after : Bool) : Event portalSig → Bool
  | ⟨.sql (.redeemInvite ..), .error _⟩ => true
  | ⟨.sql (.insertToken ..), .error _⟩ => true
  | ⟨.now, now⟩ => after && !decide (Lasts 3600 defaultBearerTtlHours now)
  | _ => false

def stumbles (after : Bool) : List (Event portalSig) → Bool
  | [] => false
  | ev :: evs => trips after ev || stumbles (after || redeemed ev) evs

theorem stumbles_concat {after : Bool} {evs : List (Event portalSig)} {ev : Event portalSig} :
    stumbles after (evs ++ [ev]) = (stumbles after evs || trips (after || evs.any redeemed) ev) := by
  induction evs generalizing after with
  | nil => simp [stumbles]
  | cons e evs ih => simp only [List.cons_append, stumbles, ih, List.any_cons, Bool.or_assoc]

def Writeless : Event portalSig → Prop
  | ⟨.sql (.inviteById _), _⟩ => True
  | ⟨.sql (.redeemInvite ..), r⟩ => r ≠ .ok true
  | ⟨.sql _, _⟩ => False
  | _ => True

theorem writeless_exec {a : Act} {i : Env} {w : World} (h : Writeless ⟨a, (a.exec i w).1⟩) :
    (a.exec i w).2.db = w.db := by
  cases a with
  | sql q =>
    cases hr : (q.answer i w.db).1 with
    | error e => exact Stmt.answer_error hr
    | ok r =>
      have hexec := (Stmt.answer_ok hr).2
      cases q with
      | inviteById id => exact (congrArg Prod.snd (Except.ok.inj hexec)).symm
      | redeemInvite id user email =>
        rcases exec_redeemInvite hexec with ⟨-, hdb⟩ | ⟨_, _, rfl, -⟩
        · exact hdb
        · exact absurd hr h
      | _ => exact h.elim
  | _ => rfl

def Answered : Event portalSig → Prop
  | ⟨.sql (.inviteById _), r⟩ => ∃ row, r = .ok row
  | ⟨.sql (.appendAudit _), r⟩ => r = .ok ()
  | _ => True

theorem answered_answer {a : Act} {i : Env} {w : World} (hf : i.fault = none) :
    Answered ⟨a, (a.exec i w).1⟩ := by
  cases a with
  | sql q =>
    cases q with
    | inviteById id => exact ⟨_, congrArg Prod.fst (Stmt.answer_of_ok hf rfl)⟩
    | appendAudit event => exact congrArg Prod.fst (appendAudit_answer hf)
    | _ => trivial
  | _ => trivial

/-! ## How a redemption ends -/

def uniform : Halt := .err .credentialRefused

inductive Concludes {α : Type} (after : Bool) (evs : List (Event portalSig)) : Except Halt α → Prop where
  | stumbled (e : Halt) (stumbled : stumbles after evs = true) (other : e ≠ uniform) :
    Concludes after evs (.error e)
  | returned (a : α) (clean : stumbles after evs = false) : Concludes after evs (.ok a)
  | refused (before : after = false) (clean : stumbles after evs = false)
    (writeless : ∀ ev ∈ evs, Writeless ev) :
    Concludes after evs (.error uniform)

section
variable {α : Type} {after : Bool} {evs : List (Event portalSig)} {o : Except Halt α}

theorem Concludes.cons {ev : Event portalSig} (ht : trips after ev = false) (hr : redeemed ev = false)
    (hw : after = false → Writeless ev) (h : Concludes after evs o) : Concludes after (ev :: evs) o := by
  have hs : stumbles after (ev :: evs) = stumbles after evs := by
    rw [stumbles, ht, hr, Bool.false_or, Bool.or_false]
  cases h with
  | stumbled e hst hne => exact .stumbled e (hs.trans hst) hne
  | returned a hclean => exact .returned a (hs.trans hclean)
  | refused hafter hclean hless =>
    refine .refused hafter (hs.trans hclean) fun e he => ?_
    rcases List.mem_cons.mp he with rfl | he
    · exact hw hafter
    · exact hless e he

theorem Concludes.commit {id user : Uuid} {email : String} (h : Concludes true evs o) :
    Concludes false (⟨.sql (.redeemInvite id user email), .ok true⟩ :: evs) o := by
  cases h with
  | stumbled e hst hne => exact .stumbled e hst hne
  | returned a hclean => exact .returned a hclean
  | refused hafter => cases hafter

theorem Concludes.trip {ev : Event portalSig} {e : Halt} (ht : trips after ev = true) (he : e ≠ uniform) :
    Concludes (α := α) after [ev] (.error e) := .stumbled e (by rw [stumbles, ht, Bool.true_or]) he

theorem Concludes.map {β : Type} {f : α → β} (h : Concludes after evs o) : Concludes after evs (o.map f) := by
  cases h with
  | stumbled e hst hne => exact .stumbled e hst hne
  | returned a hclean => exact .returned (f a) hclean
  | refused hafter hclean hless => exact .refused hafter hclean hless

theorem Concludes.clean (h : Concludes false evs o) (huniform : (∃ a, o = .ok a) ∨ o = .error uniform) :
    stumbles false evs = false := by
  cases h with
  | stumbled e hst hne => simp [hne] at huniform
  | returned a hclean => exact hclean
  | refused hafter hclean hless => exact hclean

theorem Concludes.uniform (h : Concludes false evs o) (hclean : stumbles false evs = false) :
    ((∃ a, o = .ok a) ∨ o = .error uniform) ∧ ((∀ a, o ≠ .ok a) → ∀ ev ∈ evs, Writeless ev) := by
  cases h with
  | stumbled e hst hne => cases hst.symm.trans hclean
  | returned a _ => exact ⟨.inl ⟨a, rfl⟩, fun h => absurd rfl (h a)⟩
  | refused hafter _ hless => exact ⟨.inr rfl, fun _ => hless⟩

end

theorem concludes_told {α : Type} {after : Bool} {ev : Event portalSig} {p : Verb α}
    (ht : trips after ev = false)
    (hr : redeemed ev = false) (hw : after = false → Writeless ev) (h : p.Told Answered (Concludes after)) :
    p.Told Answered fun evs o => Concludes after (ev :: evs) o :=
  h.mono fun _ _ ho => ho.cons ht hr hw

theorem refuse_concludes {α : Type} : (refuse .credentialRefused : Verb α).Told Answered (Concludes false) := by
  show Concludes false [] (.error uniform)
  exact .refused rfl rfl fun ev hev => nomatch hev

section
variable {P : Portal} (hs : P.bearerSecret ≠ [])
include hs

theorem mint_concludes (user : Uuid) :
    (P.mintBearer user defaultBearerTtlHours).Told Answered (Concludes true) := by
  unfold Portal.mintBearer
  rw [secret_eq hs]
  refine Prog.told_act fun id _ => concludes_told rfl rfl nofun ?_
  refine Prog.told_act fun nonce _ => concludes_told rfl rfl nofun ?_
  apply Prog.told_act
  intro now _
  show ((lifetime "hours" 3600 defaultBearerTtlHours now).bind _).Told _ _
  rcases lifetime_eq "hours" 3600 defaultBearerTtlHours now with ⟨hlast, hlife⟩ | ⟨hlast, m, hlife⟩
  · rw [hlife, Prog.bind_ret]
    refine concludes_told (by simp [trips, hlast]) rfl nofun ?_
    refine told_query (fun _ _ => concludes_told rfl rfl nofun ?_) fun e _ => .trip rfl nofun
    refine told_query (fun _ _ => concludes_told rfl rfl nofun ?_) fun e he => nomatch he
    obtain ⟨link, hlink⟩ := bearerLink_ok hs id user nonce (now + seconds (defaultBearerTtlHours * 3600))
    show (ofExcept (P.bearerLink id user nonce _)).Told _ _
    rw [hlink]
    exact .returned link rfl
  · rw [hlife]
    exact .trip (by simp [trips, hlast]) nofun

theorem afterRedemption_concludes (user invite : Uuid) (email : String) :
    (P.afterRedemption user invite email).Told Answered (Concludes true) := by
  refine told_query (fun _ _ => concludes_told rfl rfl nofun ?_) fun e he => nomatch he
  exact Prog.Told.map ((mint_concludes hs user).mono fun _ _ h => h.map)

theorem redeem_concludes (link email : String) : (P.redeem link email).Told Answered (Concludes false) := by
  unfold Portal.redeem
  dsimp only
  split
  · exact refuse_concludes
  next parts _ =>
    refine told_query (fun row _ => concludes_told rfl rfl (fun _ => trivial) ?_) fun e he => ?_
    · split
      · exact refuse_concludes
      next row _ =>
        split
        · exact refuse_concludes
        refine Prog.told_act fun now _ => concludes_told rfl rfl (fun _ => trivial) ?_
        rw [Prog.bind_ret]
        split
        · exact refuse_concludes
        refine Prog.told_act fun user _ => concludes_told rfl rfl (fun _ => trivial) ?_
        refine told_query (fun done _ => ?_) fun e _ => .trip rfl nofun
        cases done with
        | false => exact concludes_told rfl rfl (fun _ => nofun) refuse_concludes
        | true =>
          exact (afterRedemption_concludes hs user parts.id row.recipientEmail).mono fun _ _ h => h.commit
    · obtain ⟨row, hrow⟩ := he
      cases hrow

end

/-! ## What the inserts need -/

theorem answers_iff {q : Stmt} {i : Env} {db : Db} (hf : i.fault = none) :
    (∃ r, (q.answer i db).1 = .ok r) ↔ ∃ x, q.exec i.now.stored i.scan db = .ok x := by
  constructor
  · intro ⟨r, hr⟩
    exact ⟨_, (Stmt.answer_ok hr).2⟩
  · intro ⟨x, hx⟩
    exact ⟨x.1, by rw [Stmt.answer_of_ok hf hx]⟩

theorem redeemInvite_fits {db : Db} {id user : Uuid} {email : String} {now : Instant} {scan : Nat}
    (hnames : ∀ v ∈ db.invites.get id, v.recipientEmail = email) :
    (∃ x, (Stmt.redeemInvite id user email).exec now scan db = .ok x) ↔
      ∀ v ∈ db.invites.get id, v.status = .pending → db.users.get user = none ∧ db.principal email = none := by
  by_cases hrow : ∃ v ∈ db.invites.get id, v.status = .pending
  · obtain ⟨v, hv, hp⟩ := hrow
    obtain ⟨settled, hexec⟩ : ∃ settled, (Stmt.redeemInvite id user email).exec now scan db = _ :=
      redeemInvite_pending hv hp
    have hcheck := recipient_checked hv
    rw [hnames v hv] at hcheck
    rw [hexec]
    constructor
    · intro hx w hw hpw
      refine (freshUser_conflict now hcheck).mp ?_
      cases hin : db.users.insert (.fresh user email now) with
      | error c => simp [hin] at hx
      | ok users => exact (Table.insert_eq_ok.mp hin).1
    · intro h
      have hnone := (freshUser_conflict now hcheck).mpr (h v hv hp)
      cases hin : db.users.insert (.fresh user email now) with
      | error c => rw [Table.insert_eq_error.mp hin] at hnone; cases hnone
      | ok users => exact ⟨_, rfl⟩
  · have hnone : (db.invites.rows.filter fun v => v.id = id && v.status = .pending) = [] := by
      rw [db.invites_with_id]
      cases hg : db.invites.get id with
      | none => rfl
      | some v => simpa using fun hp => hrow ⟨v, hg, hp⟩
    obtain ⟨settled, hu⟩ : ∃ settled, db.invites.update (fun v => v.id = id && v.status = .pending)
        (·.redeem user now) (fun _ => rfl) (fun _ => rfl) = .ok ([], settled) := by
      obtain ⟨settled, hu, -⟩ := Table.update_ok db.invites fun r hr _ =>
        (redeem_broken r user now).trans (db.invites.checked r hr)
      rw [hnone] at hu
      exact ⟨settled, hu⟩
    constructor
    · exact fun _ v hv hp => absurd ⟨v, hv, hp⟩ hrow
    · intro _
      refine ⟨(false, db), ?_⟩
      simp only [Stmt.exec, hu]
      rfl

theorem insertToken_fits_iff {db : Db} {id user : Uuid} {nonce : String} {expires now : Instant} {scan : Nat} :
    (∃ x, (Stmt.insertToken id user nonce expires).exec now scan db = .ok x) ↔
      db.tokens.conflict (.fresh id user nonce expires now) = none ∧ (db.users.get user).isSome = true := by
  simp only [Stmt.exec, Db.insertToken]
  cases hin : db.tokens.insert (.fresh id user nonce expires now) with
  | error c => simp [Table.insert_eq_error.mp hin]
  | ok tokens =>
    rw [(Table.insert_eq_ok.mp hin).1]
    cases hu : db.users.get user <;> simp [PortalToken.fresh, hu]

/-- What the redemption is about to do succeeds: the principal can be inserted
if the row is pending, and the bearer; the clock leaves room for its expiry. -/
def Fits (c : Call portalSig Halt Reply Request) (a : Act) (i : Env) (w : World) : Prop :=
  match a with
  | .sql (.redeemInvite id user email) =>
    ∀ v ∈ w.db.invites.get id, v.status = .pending → w.db.users.get user = none ∧ w.db.principal email = none
  | .sql (.insertToken id user nonce expires) =>
    w.db.tokens.conflict (.fresh id user nonce expires i.now.stored) = none ∧
      (w.db.users.get user).isSome = true
  | .now => c.past.any redeemed = true → Lasts 3600 defaultBearerTtlHours i.now
  | _ => True

instance (c : Call portalSig Halt Reply Request) (a : Act) (i : Env) (w : World) :
    Decidable (Fits c a i w) :=
  decidable_of_iff
    ((match a with
      | .sql (.redeemInvite id user email) => decide (∀ v ∈ w.db.invites.get id, v.status = .pending →
          w.db.users.get user = none ∧ w.db.principal email = none)
      | .sql (.insertToken id user nonce expires) =>
        decide (w.db.tokens.conflict (.fresh id user nonce expires i.now.stored) = none ∧
          (w.db.users.get user).isSome = true)
      | .now => decide (c.past.any redeemed = true → Lasts 3600 defaultBearerTtlHours i.now)
      | _ => true) = true) (by
      unfold Fits
      split <;> simp)

theorem fits_iff {c : Call portalSig Halt Reply Request} {a : Act} {i : Env} {w : World} (hf : i.fault = none)
    (hnames : NamesRecipient a w) : Fits c a i w ↔ trips (c.past.any redeemed) ⟨a, (a.exec i w).1⟩ = false := by
  have ok_iff : ∀ {q : Stmt}, (∃ x, q.exec i.now.stored i.scan w.db = .ok x) ↔
    ∃ r, (q.answer i w.db).1 = .ok r :=
    (answers_iff hf).symm
  cases a with
  | sql q =>
    cases q with
    | redeemInvite id user email =>
      have hrow : ∀ v ∈ w.db.invites.get id, v.recipientEmail = email := by
        intro v hv
        obtain ⟨v', hv', he⟩ := hnames
        cases hv'.symm.trans hv
        exact he
      refine (redeemInvite_fits hrow).symm.trans (ok_iff.trans ?_)
      show _ ↔ trips _ (Event.mk (S := portalSig) (.sql (.redeemInvite id user email))
        ((Stmt.redeemInvite id user email).answer i w.db).1) = false
      cases ((Stmt.redeemInvite id user email).answer i w.db).1 <;> simp [trips]
    | insertToken id user nonce expires =>
      refine insertToken_fits_iff.symm.trans (ok_iff.trans ?_)
      show _ ↔ trips _ (Event.mk (S := portalSig) (.sql (.insertToken id user nonce expires))
        ((Stmt.insertToken id user nonce expires).answer i w.db).1) = false
      cases ((Stmt.insertToken id user nonce expires).answer i w.db).1 <;> simp [trips]
    | _ => exact ⟨fun _ => rfl, fun _ => trivial⟩
  | now =>
    show (_ → _) ↔ (_ && !decide (Lasts 3600 defaultBearerTtlHours i.now)) = false
    cases c.past.any redeemed with
    | false => simp
    | true => simp only [forall_const, Bool.true_and, Bool.not_eq_false', decide_eq_true_eq]
  | _ => exact ⟨fun _ => rfl, fun _ => trivial⟩

def RedemptionFits (j : Nat) : Pool portalMachine Halt Reply Request → Move portalMachine Request → Prop :=
  Pool.Next fun j' c a i w => j' = j → Fits c a i w

instance (j : Nat) (pool : Pool portalMachine Halt Reply Request) (m : Move portalMachine Request) :
    Decidable (RedemptionFits j pool m) := inferInstanceAs (Decidable (Pool.Next _ _ _))

section
variable {P : Portal} {pool : Pool portalMachine Halt Reply Request} {ms : List (Move portalMachine Request)}

theorem serve_concludes (hs : P.bearerSecret ≠ []) (t : Request) :
    (P.serve t).Told Answered fun evs o => ∀ link email, t = .redeem link email → Concludes false evs o := by
  cases t with
  | redeem link email =>
    apply Prog.Told.mono (R := Concludes false) (fun _ _ h _ _ _ => h)
    exact Prog.Told.map ((redeem_concludes hs link email).mono fun _ _ h => h.map)
  | _ => exact (Prog.told_all (Prog.all_true _)).mono fun _ _ _ _ _ => nofun

theorem admits_iff_clean (hcalls : pool.calls = []) (hfree : ∀ m ∈ ms, Unfailing m) {j : Nat}
    {c : Call portalSig Halt Reply Request} (hc : (pool.play P.serve ms).calls[j]? = some c) :
    pool.Admits P.serve (RedemptionFits j) ms ↔ stumbles false c.past = false := by
  have hvalid : pool.Admits P.serve
    (fun Q m => Unfailing m ∧ ∀ x ∈ Q.performs m, NamesRecipient x.1 Q.world) ms :=
    (Pool.admits_of_forall P.serve (fun m hm _ => hfree m hm) pool).and P.serve
      (Pool.play_guarded (M := portalMachine) (G := Grows) P.serve Grows.refl
        (fun _ _ _ => Grows.trans) grows_exec
        (fun t _ => serve_names t) hcalls ms)
  have key := Pool.admits_next_iff (A := fun j' c a i w => j' = j → Fits c a i w)
    (G := fun j' evs => j' = j → stumbles false evs = false) P.serve (fun _ _ => rfl) (fun j' evs ev h hj => ?_)
    (fun Q j' i d a k hv hd ha hpast => ?_) (by simp [hcalls]) hvalid
  · refine key.trans ⟨fun h => h j c hc rfl, fun h j' d hd hj => ?_⟩
    subst hj
    cases hc.symm.trans hd
    exact h
  · have hclean := h hj
    rw [stumbles_concat, Bool.or_eq_false_iff] at hclean
    exact hclean.1
  · apply forall_congr'
    intro hj
    rw [stumbles_concat, hpast hj, Bool.false_or, Bool.false_or]
    exact fits_iff hv.1 (hv.2 _ (Pool.performs_step hd ha i))

end

/-- **Redemption refuses uniformly** in the runs where its inserts fit: then,
and only then, a finished `redeem` has returned or refused with
`CredentialRefused`, and left the database alone if it refused. -/
theorem redemption_uniform_iff (P : Portal) (hs : P.bearerSecret ≠ [])
    (pool : Pool portalMachine Halt Reply Request)
    (ms : List (Move portalMachine Request)) (hcalls : pool.calls = []) (hfree : ∀ m ∈ ms, Unfailing m)
    (j : Nat) (c : Call portalSig Halt Reply Request) (link email : String) (o : Except Halt Reply)
    (hc : (pool.play P.serve ms).calls[j]? = some c) (htag : c.tag = .redeem link email)
    (ho : c.outcome = some o) :
    (((∃ r, o = .ok r) ∨ o = .error (.err .credentialRefused)) ∧
      ((∀ r, o ≠ .ok r) → ∀ ms₁ i ms₂, ms = ms₁ ++ .step j i :: ms₂ →
        (pool.play P.serve (ms₁ ++ [.step j i])).world.db = (pool.play P.serve ms₁).world.db)) ↔
    pool.Admits P.serve (RedemptionFits j) ms := by
  have hanswers : pool.Admits P.serve (Pool.Answers fun _ => Answered) ms := by
    refine Pool.admits_of_forall P.serve (fun m hm Q j i d a k he hd ha => ?_) pool
    subst he
    exact answered_answer (hfree _ hm)
  have hconc := Pool.play_told P.serve (serve_concludes hs) hcalls hanswers c
    (List.mem_of_getElem? hc) o ho link email htag
  rw [admits_iff_clean hcalls hfree hc]
  constructor
  · exact fun h => hconc.clean h.1
  · intro hclean
    obtain ⟨huniform, hless⟩ := hconc.uniform hclean
    refine ⟨huniform, fun hno ms₁ i ms₂ hms => ?_⟩
    rw [Pool.play_append]
    rcases Pool.step_past P.serve hms hc with ⟨a, hev, hworld⟩ | hworld
    · exact (congrArg World.db hworld).trans (writeless_exec (hless hno _ hev))
    · exact congrArg World.db hworld

namespace Probe

def failure (pool : Pool portalMachine Halt Reply Request) (j : Nat) : Option (String × String × Halt) :=
  pool.calls[j]?.bind fun c =>
    match c.tag, c.outcome with
    | .redeem link email, some (.error e) => some (link, email, e)
    | _, _ => none

theorem failure_eq_some {pool : Pool portalMachine Halt Reply Request} {j : Nat}
    {link email : String} {e : Halt}
    (h : failure pool j = some (link, email, e)) :
    ∃ c, pool.calls[j]? = some c ∧ c.tag = .redeem link email ∧ c.outcome = some (.error e) := by
  obtain ⟨c, hc, h⟩ := Option.bind_eq_some_iff.mp h
  split at h
  next htag ho => cases h; exact ⟨c, hc, htag, ho⟩
  · cases h

def preempted : List (Move portalMachine Request) :=
  alone 0 3 (.setSignupPolicy true none none) env ++ alone 1 15 (.signup email "secret" "10.0.0.1") env ++
    alone 2 5 (.mintInvite email none 14) { env with uuid := uuid 1 } ++
    alone 3 4 (.redeem inviteLink email) { env with uuid := uuid 7 }

def twice : List (Move portalMachine Request) :=
  alone 0 5 (.mintInvite email none 14) { env with uuid := uuid 1 } ++
    alone 1 9 (.redeem inviteLink email) { env with nonce := 7 } ++ alone 2 2 (.redeem inviteLink email) env

end Probe

/-- The principal of the address exists: the unique index answers. -/
theorem redemption_not_uniform :
    Probe.portal.bearerSecret ≠ [] ∧ (∀ m ∈ Probe.preempted, Unfailing m) ∧
    Probe.failure (Probe.blank.play Probe.portal.serve Probe.preempted) 3 =
      some (Probe.inviteLink, Probe.email, .err (.db (.violates "idx_portal_users_email_live"))) := by
  refine ⟨by decide, by decide, ?_⟩
  rw [Probe.preempted.eq_1]
  simp -implicitDefEqProofs only [Pool.play_append, Probe.alone, Pool.play_cons, Pool.next_start]
  rw [serve_redeem, Portal.redeem.eq_1, Probe.parse_inviteLink]
  decide +kernel

theorem redemption_uniform_iff_probe :
    Probe.failure (Probe.blank.play Probe.portal.serve Probe.twice) 2 =
      some (Probe.inviteLink, Probe.email, .err .credentialRefused) ∧
    (Probe.blank.play Probe.portal.serve Probe.twice).world.db.tokens.rows.length = 1 ∧
    ∀ ms₁ i ms₂, Probe.twice = ms₁ ++ .step 2 i :: ms₂ →
      (Probe.blank.play Probe.portal.serve (ms₁ ++ [.step 2 i])).world.db =
        (Probe.blank.play Probe.portal.serve ms₁).world.db := by
  have hrun : Probe.failure (Probe.blank.play Probe.portal.serve Probe.twice) 2 =
        some (Probe.inviteLink, Probe.email, .err .credentialRefused) ∧
      (Probe.blank.play Probe.portal.serve Probe.twice).world.db.tokens.rows.length = 1 ∧
      ((Probe.blank.play Probe.portal.serve Probe.twice).calls[2]?.map fun c =>
        stumbles false c.past) = some false := by
    rw [Probe.twice.eq_1]
    simp -implicitDefEqProofs only [Pool.play_append, Probe.alone, Pool.play_cons, Pool.next_start]
    rw [serve_redeem, Portal.redeem.eq_1, Probe.parse_inviteLink]
    decide +kernel
  obtain ⟨hfail, hlength, hclean⟩ := hrun
  refine ⟨hfail, hlength, ?_⟩
  obtain ⟨c, hc, htag, ho⟩ := Probe.failure_eq_some hfail
  rw [hc, Option.map_some, Option.some.injEq] at hclean
  have hfree : ∀ m ∈ Probe.twice, Unfailing m := by decide
  exact ((redemption_uniform_iff Probe.portal (by decide) Probe.blank Probe.twice rfl hfree 2 c Probe.inviteLink
    Probe.email _ hc htag ho).mpr ((admits_iff_clean rfl hfree hc).mpr hclean)).2 fun _ h => by cases h

end BackbonePortal
