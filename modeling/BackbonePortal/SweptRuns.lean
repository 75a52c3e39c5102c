import BackbonePortal.Careful
import BackbonePortal.Origins

/-!
# Runs with sweeps

A run of the verbs and the lifecycle events, with sweeps inserted, beside the
same run without them. The calls of the two are in step: a redemption may learn
from a marked row what it would have learnt from its clock one action later,
and an event may audit a different count.
-/

namespace BackbonePortal

open Proc Tables

def World.swept (i : Env) (w : World) : World := (sweepExpired.run portalMachine (fun _ => i) w).2

theorem swept_eq (i : Env) (w : World) : w.swept i = ((Act.sql .sweepExpired).exec i w).2 := by
  show (Prog.run portalMachine (query .sweepExpired) _ w).2 = (portalMachine.exec (.sql .sweepExpired) i w).2
  unfold query
  rw [Prog.run_act]
  generalize portalMachine.exec (.sql .sweepExpired) i w = x
  obtain ⟨r, u⟩ := x
  cases r <;> rfl

/-- The next statement, but for the draw of an id, spends the invitation. -/
inductive Spends (id : Uuid) : Verb Reply → Prop where
  | spend {user : Uuid} {email : String} {k : Except SqlError Bool → Verb Reply} :
      Spends id (.act (.sql (.redeemInvite id user email)) k)
  | draw {k : Uuid → Verb Reply} (user : Uuid) (h : Spends id (k user)) : Spends id (.act .newUuid k)

/-- The sweep marks no invitation that a call past its expiry check has yet to spend. -/
def SweepClear (pool : Pool portalMachine Halt Reply Request) (i : Env) : Prop :=
  ∀ c ∈ pool.calls, ∀ id, Spends id c.rest → ∀ v, pool.world.db.invites.get id = some v → ¬v.Overdue i.now

theorem spends_of_holding {silent : Prop} {st : RedeemStage} {id : Uuid} {p : Verb Reply}
    (h : Careful silent st p)
    (hst : st = .holding id) : Spends id p := by
  induction h with
  | drawing _ ih => exact .draw ⟨0⟩ (ih ⟨0⟩ hst)
  | redeeming _ =>
    cases hst
    exact .spend
  | _ => cases hst

/-! ## Calls in step -/

/-- The expiries of the invitations are instants the column can hold. -/
def World.Stored (w : World) : Prop := ∀ v ∈ w.db.invites.rows, v.tokenExpiresAt.stored = v.tokenExpiresAt

theorem stored_exec (a : Act) (i : Env) (w : World) (h : w.Stored) : (a.exec i w).2.Stored := by
  cases a with
  | sql q =>
    intro v hv
    cases hr : (q.answer i w.db).1 with
    | error e =>
      rw [show (Act.exec (.sql q) i w).2.db = (q.answer i w.db).2 from rfl, Stmt.answer_error hr] at hv
      exact h v hv
    | ok r =>
      rcases invite_origin (Stmt.answer_ok hr).2 hv with ⟨u, hu, hstep⟩ | ⟨_, _, _, expires, _, rfl, -, rfl⟩
      · rw [hstep.keeps.2.2.1]
        exact h u hu
      · exact expires.stored_stored
  | _ => exact h

theorem SweptBeside.refl {t : Instant} {w : World} (hstored : w.Stored) : SweptBeside t w w :=
  ⟨rfl, rfl, rfl, rfl, .refl (fun _ => .inl rfl) _, hstored⟩

def RedeemStage.Meets (w w' : World) : RedeemStage → Prop
  | .free => True
  | .reading id expires => ∃ v, w.db.invites.get id = some v ∧ v.tokenExpiresAt = expires
  | .holding id => w.db.invites.get id = w'.db.invites.get id

inductive CallBeside (t : Instant) (w w' : World) (c c' : Call portalSig Halt Reply Request) : Prop where
  | joint (st : RedeemStage) (hrest : c.rest = c'.rest) (hst : Careful (¬c.tag.Answers) st c.rest)
    (hmeets : st.Meets w w')
  | refused {k : Instant → Verb Reply} (hc : c.rest = refuse .credentialRefused) (hc' : c'.rest = .act .now k)
      (hlate : ∀ s : Instant, t ≤ s → k s = refuse .credentialRefused)
  | audits (hsilent : ¬c.tag.Answers) (hc : c.rest.All Act.Audits) (hc' : c'.rest.All Act.Audits)

section
variable {t s : Instant} {w w' u u' : World} {c c' : Call portalSig Halt Reply Request} {i : Env}

theorem RedeemStage.Meets.kept {st : RedeemStage} (hkeeps : w.db.invites.Follows InviteKeeps u.db.invites)
    (hsame : ∀ id, w.db.invites.get id = w'.db.invites.get id → u.db.invites.get id = u'.db.invites.get id)
    (h : st.Meets w w') : st.Meets u u' := by
  cases st with
  | free => trivial
  | reading id expires =>
    obtain ⟨v, hv, rfl⟩ := h
    obtain ⟨x, hx, -, -, hexpires, -⟩ := hkeeps.get hv
    exact ⟨x, hx, hexpires⟩
  | holding id => exact hsame id h

theorem CallBeside.kept (ht : t ≤ s) (hkeeps : w.db.invites.Follows InviteKeeps u.db.invites)
    (hsame : ∀ id, w.db.invites.get id = w'.db.invites.get id → u.db.invites.get id = u'.db.invites.get id)
    (h : CallBeside t w w' c c') : CallBeside s u u' c c' := by
  cases h with
  | joint st hrest hst hmeets => exact .joint st hrest hst (hmeets.kept hkeeps hsame)
  | refused hc hc' hlate => exact .refused hc hc' fun r hr => hlate r (Int.le_trans ht hr)
  | audits hsilent hc hc' => exact .audits hsilent hc hc'

theorem advance_evolves (c : Call portalSig Halt Reply Request) (i : Env) (w : World) :
    Evolves w.db (c.advance (M := portalMachine) i w).1.db := by
  unfold Call.advance
  split
  · exact act_evolves _ i w
  · exact .refl _

/-- What a step of one call leaves of two worlds side by side. -/
def InStep (s : Instant) (w w' : World) (x x' : World × Call portalSig Halt Reply Request) : Prop :=
  StaysBeside s w w' x.1 x'.1 ∧ CallBeside s x.1 x'.1 x.2 x'.2

theorem inStep_of_same {a : Act} {k : a.Res → Verb Reply} (hc : c.rest = .act a k)
    (hc' : c'.rest = .act a k) (st : RedeemStage)
    (hans : (a.exec i w).1 = (a.exec i w').1) (hstays : StaysBeside s w w' (a.exec i w).2 (a.exec i w').2)
    (hst : Careful (¬c.tag.Answers) st (k (a.exec i w).1)) (hmeets : st.Meets (a.exec i w).2 (a.exec i w').2) :
    InStep s w w' (c.advance (M := portalMachine) i w) (c'.advance (M := portalMachine) i w') := by
  rw [Call.advance_act hc, Call.advance_act hc']
  refine ⟨hstays, .joint st ?_ hst hmeets⟩
  exact congrArg k hans

theorem CallBeside.of_refused (hc : c.rest = refuse .credentialRefused)
    (hc' : c'.rest = refuse .credentialRefused) :
    CallBeside t w w' c c' := by
  refine .joint .free (hc.trans hc'.symm) ?_ trivial
  rw [hc]
  exact .fail _

theorem inStep_idle (h : SweptBeside t w w') (ht : t ≤ s) (hc : c.next = none) (hc' : c'.next = none)
    (hcalls : CallBeside s w w' c c') :
    InStep s w w' (c.advance (M := portalMachine) i w) (c'.advance (M := portalMachine) i w') := by
  rw [Call.advance_idle hc, Call.advance_idle hc']
  exact ⟨h.outside ht h.users h.tokens h.policies h.book rfl rfl, hcalls⟩

theorem read_inStep (h : SweptBeside t w w') (ht : t ≤ i.now) {id : Uuid}
    {k : Except SqlError (Option InviteJoin) → Verb Reply} (hc : c.rest = .act (.sql (.inviteById id)) k)
    (hc' : c'.rest = .act (.sql (.inviteById id)) k) (herr : ∀ e, Careful (¬c.tag.Answers) .free (k (.error e)))
    (hnone : Careful (¬c.tag.Answers) .free (k (.ok none)))
    (hother : ∀ row, row.status ≠ .pending → k (.ok (some row)) = refuse .credentialRefused)
    (hrow : ∀ row, row.status = .pending →
      Careful (¬c.tag.Answers) (.reading id row.expiresAt) (k (.ok (some row)))) :
    InStep i.now w w' (c.advance (M := portalMachine) i w) (c'.advance (M := portalMachine) i w') := by
  have hsame : w.db.invites.Follows InviteKeeps ((Act.sql (.inviteById id)).exec i w).2.db.invites :=
    (act_evolves (.sql (.inviteById id)) i w).invites
  obtain ⟨hstays, hans⟩ := inviteById_step id h ht
  rcases hans with ⟨heq, hread⟩ | ⟨row, row', hr, hr', hrefused, hlate⟩
  · cases ha : ((Act.sql (.inviteById id)).exec i w).1 with
    | error e => exact inStep_of_same hc hc' .free heq hstays (ha ▸ herr e) trivial
    | ok found =>
      cases found with
      | none => exact inStep_of_same hc hc' .free heq hstays (ha ▸ hnone) trivial
      | some row =>
        by_cases hs : row.status = .pending
        · obtain ⟨v, hv, hexpires⟩ := hread row ha
          obtain ⟨x, hx, hkept⟩ := hsame.get hv
          exact inStep_of_same hc hc' (.reading id row.expiresAt) heq hstays
            (ha ▸ hrow row hs) ⟨x, hx, hkept.2.2.1.trans hexpires⟩
        · have hfail : Careful (¬c.tag.Answers) .free (k (.ok (some row))) := by
            rw [hother row hs]
            exact .fail _
          exact inStep_of_same hc hc' .free heq hstays (ha ▸ hfail) trivial
  · rw [Call.advance_act hc, Call.advance_act hc']
    refine ⟨hstays, ?_⟩
    have hleft : k ((Act.sql (.inviteById id)).exec i w).1 = refuse .credentialRefused := by
      rw [hr]
      exact hother row hrefused
    by_cases hs : row'.status = .pending
    · have hright := hrow row' hs
      rw [← hr'] at hright
      generalize hp : k ((Act.sql (.inviteById id)).exec i w').1 = p at hright
      cases hright with
      | refused => exact .of_refused hleft hp
      | checking hpast hk => exact .refused hleft hp fun r hr => hpast r (Int.lt_of_lt_of_le hlate hr)
    · have hright : k ((Act.sql (.inviteById id)).exec i w').1 = refuse .credentialRefused := by
        rw [hr']
        exact hother row' hs
      exact .of_refused hleft hright

/-- **One step** of calls that stand alike. -/
theorem careful_inStep (h : SweptBeside t w w') (ht : t ≤ i.now) {st : RedeemStage} (hrest : c.rest = c'.rest)
    (hst : Careful (¬c.tag.Answers) st c.rest) (hmeets : st.Meets w w') :
    InStep i.now w w' (c.advance (M := portalMachine) i w) (c'.advance (M := portalMachine) i w') := by
  have hidle : c.next = none → c'.next = none →
      InStep i.now w w' (c.advance (M := portalMachine) i w) (c'.advance (M := portalMachine) i w') := by
    intro hn hn'
    exact inStep_idle h ht hn hn' (.joint st hrest hst hmeets)
  generalize hc : c.rest = p at hst hrest hidle
  have hc' := hrest.symm
  cases hst with
  | ret a => exact hidle (by simp only [Call.next, hc]) (by simp only [Call.next, hc'])
  | fail e => exact hidle (by simp only [Call.next, hc]) (by simp only [Call.next, hc'])
  | refused => exact hidle (by simp only [Call.next, hc]; rfl) (by simp only [Call.next, hc']; rfl)
  | joint ha hk =>
    obtain ⟨hans, hstays⟩ := joint_step ha h ht
    exact inStep_of_same hc hc' .free hans hstays (hk _) trivial
  | revokePending hs hk =>
    rw [Call.advance_act hc, Call.advance_act hc']
    exact ⟨revokePending_step h ht, .audits hs (hk _) (hk _)⟩
  | read herr hnone hother hrow => exact read_inStep h ht hc hc' herr hnone hother hrow
  | @checking id expires k hlate hk =>
    by_cases hpast : expires < i.now
    · have hfail : Careful (¬c.tag.Answers) .free (k i.now) := by
        rw [hlate _ hpast]
        exact .fail _
      exact inStep_of_same (a := .now) hc hc' .free rfl (h.stay ht) hfail trivial
    · -- The row is not past its expiry, so no sweep has marked it.
      obtain ⟨v, hv, rfl⟩ := hmeets
      refine inStep_of_same (a := .now) hc hc' (.holding id) rfl (h.stay ht) (hk _ hpast) ?_
      rcases h.get id with ⟨hn, -⟩ | ⟨v₁, v₂, hv₁, hv₂, hbeside⟩
      · rw [hn] at hv
        cases hv
      · rw [hv₁] at hv
        cases hv
        show w.db.invites.get id = w'.db.invites.get id
        rw [hv₁, hv₂]
        rcases hbeside with rfl | hm
        · rfl
        · exact absurd (Int.lt_of_lt_of_le hm.past ht) hpast
  | drawing hk => exact inStep_of_same (a := .newUuid) hc hc' (.holding _) rfl (h.stay ht) (hk _) hmeets
  | redeeming hk =>
    obtain ⟨hans, hstays⟩ := redeemInvite_step h hmeets ht
    exact inStep_of_same hc hc' .free hans hstays (hk _) trivial

theorem advance_audits (hc : c.rest.All Act.Audits) (i : Env) (w : World) :
    (c.advance (M := portalMachine) i w).2.rest.All Act.Audits ∧
      ∃ trail clock, (c.advance (M := portalMachine) i w).1 = { w with db := { w.db with trail }, clock } := by
  cases hr : c.rest with
  | act a k =>
    rw [hr] at hc
    rw [Call.advance_act hr]
    refine ⟨hc.2 _, ?_⟩
    cases a with
    | sql q =>
      cases q with
      | appendAudit event =>
        cases hf : i.fault with
        | some text =>
          refine ⟨w.db.trail, i.now, ?_⟩
          show (Act.exec (.sql (.appendAudit event)) i w).2 = _
          simp only [Act.exec, Stmt.answer_fault hf]
        | none =>
          refine ⟨w.db.trail ++ [⟨event, i.now.stored⟩], i.now, ?_⟩
          show (Act.exec (.sql (.appendAudit event)) i w).2 = _
          simp only [Act.exec, appendAudit_answer hf]
          rfl
      | _ => exact hc.1.elim
    | _ => exact hc.1.elim
  | ret a =>
    rw [Call.advance_idle (by simp only [Call.next, hr])]
    exact ⟨hc, w.db.trail, w.clock, rfl⟩
  | fail e =>
    rw [Call.advance_idle (by simp only [Call.next, hr])]
    exact ⟨hc, w.db.trail, w.clock, rfl⟩

/-- **One step**, wherever the two calls stand. -/
theorem beside_inStep (h : SweptBeside t w w') (ht : t ≤ i.now) (hcalls : CallBeside t w w' c c') :
    InStep i.now w w' (c.advance (M := portalMachine) i w) (c'.advance (M := portalMachine) i w') := by
  cases hcalls with
  | joint st hrest hst hmeets => exact careful_inStep h ht hrest hst hmeets
  | refused hc hc' hlate =>
    rw [Call.advance_idle (by simp only [Call.next, hc]; rfl), Call.advance_act hc']
    exact ⟨h.outside ht h.users h.tokens h.policies h.book rfl rfl, .of_refused hc (hlate _ ht)⟩
  | audits hsilent hc hc' =>
    obtain ⟨hrest, trail, clock, hw⟩ := advance_audits hc i w
    obtain ⟨hrest', trail', clock', hw'⟩ := advance_audits hc' i w'
    refine ⟨?_, .audits (by rwa [Call.advance_tag]) hrest hrest'⟩
    rw [hw, hw']
    exact h.outside ht h.users h.tokens h.policies h.book rfl rfl

/-- **One sweep** of the first world. -/
theorem beside_swept {P : Pool portalMachine Halt Reply Request}
    (h : SweptBeside t P.world w') (ht : t ≤ i.now) (hclear : SweepClear P i) (hmem : c ∈ P.calls)
    (hcalls : CallBeside t P.world w' c c') : CallBeside i.now (P.world.swept i) w' c c' := by
  rw [swept_eq]
  obtain ⟨-, hspared⟩ := sweep_step h ht
  cases hcalls with
  | joint st hrest hst hmeets =>
    refine .joint st hrest hst ?_
    cases st with
    | free => trivial
    | reading id expires =>
      obtain ⟨v, hv, rfl⟩ := hmeets
      obtain ⟨x, hx, -, -, hexpires, -⟩ := (act_evolves (.sql .sweepExpired) i P.world).invites.get hv
      exact ⟨x, hx, hexpires⟩
    | holding id => exact (hspared id (hclear c hmem id (spends_of_holding hst rfl))).trans hmeets
  | refused hc hc' hlate => exact .refused hc hc' fun r hr => hlate r (Int.le_trans ht hr)
  | audits hsilent hc hc' => exact .audits hsilent hc hc'

end

/-! ## Runs -/

/-- The clock of a step or of a sweep does not run behind. -/
def OnClock (t : Instant) (i : Env) : Prop := t ≤ i.now

instance (t : Instant) (i : Env) : Decidable (OnClock t i) := inferInstanceAs (Decidable ((t : Int) ≤ i.now))

section
variable (P : Portal)

def CallsBeside (t : Instant) (w w' : World) (c c' : Call portalSig Halt Reply Request) : Prop :=
  c.tag = c'.tag ∧ CallBeside t w w' c c'

/-- **The two runs stay in step**. -/
theorem swept_inStep {w : World} (hstored : w.Stored)
    {t : Instant} {ms : List (Mixed portalMachine Request)} (hclock : Follows OnClock Env.now t ms)
    (hms : Pool.Inserts P.serve World.swept SweepClear Request.Covered ⟨w, []⟩ ms) :
    (Pool.playMixed P.serve World.swept ⟨w, []⟩ ms).InStep (SweptBeside (lastTime Env.now t ms))
      (CallsBeside (lastTime Env.now t ms)) (Pool.play P.serve ⟨w, []⟩ (movesOf ms)) := by
  refine Pool.playMixed_inStep P.serve (F := CallsBeside) ?start ?idle ?step ?insert ?_ hclock hms
  case start => exact fun t w w' s hs h => ⟨rfl, .joint .free rfl (serve_careful P hs) trivial⟩
  case idle =>
    intro t w w' i h ht
    exact ⟨h.mono ht, fun c d hcd => ⟨hcd.1, hcd.2.kept ht (.refl InviteKeeps.refl _) fun _ => id⟩⟩
  case step =>
    intro t w w' i c d h ht hcd
    obtain ⟨hstays, hown⟩ := beside_inStep h ht hcd.2
    refine ⟨hstays.beside, ⟨by rw [Call.advance_tag, Call.advance_tag, hcd.1], hown⟩,
      fun c' d' hcd' => ⟨hcd'.1, ?_⟩⟩
    exact hcd'.2.kept ht (advance_evolves c i w).invites hstays.same
  case insert =>
    intro t A B i h ht hclear
    refine ⟨?_, h.length, fun j c d hc hd => ?_⟩
    · show SweptBeside i.now (A.world.swept i) B.world
      rw [swept_eq]
      exact (sweep_step h.world ht).1
    · obtain ⟨htag, hcalls⟩ := h.calls j c d hc hd
      exact ⟨htag, beside_swept h.world ht hclear (List.mem_of_getElem? hc) hcalls⟩
  exact ⟨.refl hstored, rfl, fun j c d hc => nomatch hc⟩

/-- The swept call has the result of the other, or has the refusal that the
other's next reading of the clock will give it. -/
structure SameResult (t : Instant) (c d : Call portalSig Halt Reply Request) : Prop where
  returned : ∀ o, d.outcome = some o → c.outcome = some o
  returns : ∀ o, c.outcome = some o → d.outcome = some o ∨
    d.next = some .now ∧ ∀ (i : Env) (w : World), t ≤ i.now →
      (d.advance (M := portalMachine) i w).2.outcome = some o

theorem sameResult {t : Instant} {w w' : World} {c d : Call portalSig Halt Reply Request}
    (h : CallBeside t w w' c d)
    (hanswers : c.tag.Answers) : SameResult t c d := by
  cases h with
  | joint st hrest hst hmeets =>
    have heq : c.outcome = d.outcome := by simp only [Call.outcome, hrest]
    exact ⟨fun o ho => heq.trans ho, fun o ho => .inl (heq.symm.trans ho)⟩
  | @refused k hc hd hlate =>
    have hrefused : c.outcome = some (.error (.err .credentialRefused)) := by
      simp only [Call.outcome, hc]
      rfl
    refine ⟨fun o ho => ?_, fun o ho => .inr ⟨Call.next_act hd, fun i w hi => ?_⟩⟩
    · simp only [Call.outcome, hd] at ho
      cases ho
    · rw [Call.advance_act hd]
      have hk : k i.now = refuse .credentialRefused := hlate _ hi
      rw [← ho, hrefused]
      show Call.outcome ⟨_, _, k i.now⟩ = _
      simp only [Call.outcome, hk]
      rfl
  | audits hsilent hc hd => exact absurd hanswers hsilent

/-- The sweeps of a run change no principal, no bearer and no result. -/
def Portal.SweepsUnseen (w : World) (t : Instant) (ms : List (Mixed portalMachine Request)) : Prop :=
  let swept := Pool.playMixed P.serve World.swept ⟨w, []⟩ ms
  let plain := Pool.play P.serve ⟨w, []⟩ (movesOf ms)
  swept.world.db.users = plain.world.db.users ∧ swept.world.db.tokens = plain.world.db.tokens ∧
  ∀ (j : Nat) c, swept.calls[j]? = some c →
    ∃ d, plain.calls[j]? = some d ∧ d.tag = c.tag ∧ (c.tag.Answers → SameResult (lastTime Env.now t ms) c d)

/-- A sweep at any moment marks no invitation that a redemption from that moment on would be granted. -/
def Portal.SweepsSpent (w : World) : Prop :=
  ∀ (i : Env) (id : Uuid) v v', w.db.invites.get id = some v → (w.swept i).db.invites.get id = some v' →
    v.status ≠ .expired → v'.status = .expired →
    ∀ (link email : String) parts, parseCapability link = some parts → parts.id = id →
      ∀ e : Nat → Env, (∀ n, i.now ≤ (e n).now) → ∀ o, ((P.redeem link email).run portalMachine e w).1 ≠ .ok o

theorem sweeps_spent {w : World} (hstored : w.Stored) :
    P.SweepsSpent w := by
  intro i id v v' hv hv' hs hs' link email parts hp hid e he o ho
  have hbeside : SweptBeside i.now (w.swept i) w := by
    rw [swept_eq]
    exact (sweep_step (.refl hstored) (Int.le_refl _)).1
  have hpast : v.tokenExpiresAt < i.now := by
    obtain ⟨hn, -⟩ | ⟨x, x', hx, hx', hxx⟩ := hbeside.get id
    · rw [hn] at hv'
      cases hv'
    · rw [hx] at hv'
      rw [hx'] at hv
      cases hv
      cases hv'
      rcases hxx with rfl | hm
      · exact absurd hs' hs
      · exact hm.tokenExpiresAt ▸ hm.past
  have hno : ∀ parts v, ¬P.Accepts link email e w.db parts v := by
    intro parts' x ha
    have hparts := ha.parsed
    have hx := ha.stored
    rw [hp] at hparts
    cases hparts
    rw [hid, hv] at hx
    cases hx
    have hfresh : (e 1).now ≤ v.tokenExpiresAt := ha.unexpired
    have : i.now < i.now := Int.lt_of_le_of_lt (Int.le_trans (he 1) hfresh) hpast
    exact Int.lt_irrefl _ this
  obtain ⟨⟨x, hx⟩, -⟩ := redeem_refused hno rfl
  rw [hx] at ho
  cases ho

/-- **The sweep is not load-bearing**: no sweep marks an invitation that could
still be redeemed, and where none marks the invitation of a redemption past its
expiry check, the run goes as it goes without them. -/
theorem sweeps_change_nothing {w : World} (hstored : w.Stored) {t : Instant}
    {ms : List (Mixed portalMachine Request)}
    (hclock : Follows OnClock Env.now t ms) :
    P.SweepsSpent (Pool.playMixed P.serve World.swept ⟨w, []⟩ ms).world ∧
      (Pool.Inserts P.serve World.swept SweepClear Request.Covered ⟨w, []⟩ ms → P.SweepsUnseen w t ms) := by
  constructor
  · refine sweeps_spent P (Pool.playMixed_world P.serve stored_exec (fun i u hu => ?_) hstored ms)
    rw [swept_eq]
    exact stored_exec _ i u hu
  · intro hms
    have h := swept_inStep P hstored hclock hms
    refine ⟨h.world.users, h.world.tokens, fun j c hc => ?_⟩
    have hj := (List.getElem?_eq_some_iff.mp hc).1
    rw [h.length] at hj
    obtain ⟨htag, hcalls⟩ := h.calls j c _ hc (List.getElem?_eq_getElem hj)
    exact ⟨_, List.getElem?_eq_getElem hj, htag.symm, sameResult hcalls⟩

end

namespace Probe

def late : Env := { env with now := seconds 1701209601 }

/-- A redemption that reads the clock in time, and a sweep before it spends the invitation. -/
def sweptMidway : List (Mixed portalMachine Request) :=
  [.inl (.start (.redeem inviteLink email)), .inl (.step 0 env), .inl (.step 0 env), .inr late] ++
    List.replicate 10 (.inl (.step 0 late))

def afterwards : List (Mixed portalMachine Request) :=
  .inr late :: .inl (.start (.redeem inviteLink email)) :: List.replicate 3 (.inl (.step 0 late))

end Probe

theorem sweeps_change_nothing_probe :
    (((Probe.world Probe.invited).swept Probe.late).db.invites.rows.map fun v => v.status) = [.expired] ∧
      Probe.portal.SweepsUnseen (Probe.world Probe.invited) Probe.now Probe.afterwards := by
  refine ⟨by decide +kernel, (sweeps_change_nothing Probe.portal (fun v hv => ?_) ?_).2
    ⟨fun c hc => (nomatch hc), trivial, trivial⟩⟩
  · rw [List.mem_singleton.mp hv]
    decide
  · have hstep : OnClock Probe.late.now Probe.late := Int.le_refl _
    exact ⟨by decide, hstep, hstep, hstep, trivial⟩

theorem sweep_overtakes_redemption :
    Follows OnClock Env.now Probe.now Probe.sweptMidway ∧
      Pool.Inserts Probe.portal.serve World.swept (fun _ _ => True) Request.Covered
        ⟨Probe.world Probe.invited, []⟩
        Probe.sweptMidway ∧
      ¬Probe.portal.SweepsUnseen (Probe.world Probe.invited) Probe.now Probe.sweptMidway := by
  refine ⟨?_, ⟨trivial, trivial, trivial⟩, fun h => ?_⟩
  · have hstep : OnClock Probe.late.now Probe.late := Int.le_refl _
    have hnow : OnClock Probe.now Probe.env := Int.le_refl _
    exact ⟨hnow, hnow, by decide, hstep, hstep, hstep, hstep, hstep, hstep, hstep, hstep, hstep, hstep, trivial⟩
  · have hmoves : movesOf Probe.sweptMidway = [.start (.redeem Probe.inviteLink Probe.email), .step 0 Probe.env,
        .step 0 Probe.env] ++ List.replicate 10 (.step 0 Probe.late) := rfl
    have hlength := congrArg (fun T => T.rows.length) h.1
    rw [hmoves, Probe.sweptMidway.eq_1, Pool.playMixed_append, Pool.playMixed, Pool.play_append, Pool.play_cons,
      Pool.next_start, serve_redeem, Portal.redeem.eq_1, Probe.parse_inviteLink] at hlength
    revert hlength
    decide +kernel

end BackbonePortal
