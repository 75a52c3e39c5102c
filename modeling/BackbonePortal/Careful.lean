import BackbonePortal.Expired
import BackbonePortal.Insertions

/-!
# Verbs and the expiry of an invitation

A verb that reads an invitation refuses one that is not pending, reads the
clock, refuses one that is past its expiry, and spends it by id. Between the
clock and the UPDATE it holds the invitation.
-/

namespace BackbonePortal

open Proc Tables

inductive RedeemStage where
  | free
  | reading (id : Uuid) (expires : Instant)
  | holding (id : Uuid)

def Act.Audits : Act → Prop
  | .sql (.appendAudit _) => True
  | _ => False

/-- What a verb may do at each stage; after a `revoke_pending`, whose count it
drops, a `silent` verb does nothing but audit. -/
inductive Careful {α : Type} (silent : Prop) : RedeemStage → Verb α → Prop where
  | ret (a : α) : Careful silent .free (.ret a)
  | fail (e : Halt) : Careful silent .free (.fail e)
  | joint {a : Act} {k : a.Res → Verb α} (ha : a.Joint) (hk : ∀ r, Careful silent .free (k r)) :
      Careful silent .free (.act a k)
  | revokePending {email reason : String} {k : Except SqlError Nat → Verb α} (hs : silent)
      (hk : ∀ r, (k r).All Act.Audits) : Careful silent .free (.act (.sql (.revokePending email reason)) k)
  | read {id : Uuid} {k : Except SqlError (Option InviteJoin) → Verb α}
      (herr : ∀ e, Careful silent .free (k (.error e))) (hnone : Careful silent .free (k (.ok none)))
      (hother : ∀ row, row.status ≠ .pending → k (.ok (some row)) = refuse .credentialRefused)
      (hrow : ∀ row, row.status = .pending → Careful silent (.reading id row.expiresAt) (k (.ok (some row)))) :
      Careful silent .free (.act (.sql (.inviteById id)) k)
  | refused {id : Uuid} {expires : Instant} : Careful silent (.reading id expires) (refuse .credentialRefused)
  | checking {id : Uuid} {expires : Instant} {k : Instant → Verb α}
      (hlate : ∀ t : Instant, expires < t → k t = refuse .credentialRefused)
      (hk : ∀ t : Instant, ¬expires < t → Careful silent (.holding id) (k t)) :
      Careful silent (.reading id expires) (.act .now k)
  | drawing {id : Uuid} {k : Uuid → Verb α} (hk : ∀ u, Careful silent (.holding id) (k u)) :
      Careful silent (.holding id) (.act .newUuid k)
  | redeeming {id user : Uuid} {email : String} {k : Except SqlError Bool → Verb α}
      (hk : ∀ r, Careful silent .free (k r)) :
      Careful silent (.holding id) (.act (.sql (.redeemInvite id user email)) k)

section
variable {α β : Type} {silent : Prop}

theorem careful_of_all {p : Verb α} (hp : p.All Act.Joint) : Careful silent .free p := by
  induction p with
  | ret a => exact .ret a
  | fail e => exact .fail e
  | act a k ih => exact .joint hp.1 fun r => ih r (hp.2 r)

theorem Careful.bind {st : RedeemStage} {p : Verb α} {f : α → Verb β} (hp : Careful silent st p)
    (hf : ∀ a, Careful silent .free (f a)) (haudits : silent → ∀ a, (f a).All Act.Audits) :
    Careful silent st (p.bind f) := by
  induction hp with
  | ret a => exact hf a
  | fail e => exact .fail e
  | joint ha _ ih => exact .joint ha ih
  | revokePending hs hk => exact .revokePending hs fun r => (hk r).bind (haudits hs)
  | read _ _ hother _ herr hnone hrow =>
    refine .read herr hnone (fun row hs => ?_) hrow
    rw [hother row hs]
    rfl
  | refused => exact .refused
  | checking hlate _ ih =>
    refine .checking (fun t ht => ?_) ih
    rw [hlate t ht]
    rfl
  | drawing _ ih => exact .drawing ih
  | redeeming _ ih => exact .redeeming ih

theorem careful_bind {p : Verb α} {f : α → Verb β} (hp : p.All Act.Joint)
    (hf : ∀ a, Careful silent .free (f a)) :
    Careful silent .free (p.bind f) := by
  induction p with
  | ret a => exact hf a
  | fail e => exact .fail e
  | act a k ih => exact .joint hp.1 fun r => ih r (hp.2 r)

theorem careful_query {q : Stmt} {f : q.Res → Verb β} (hq : (Act.sql q).Joint)
    (hf : ∀ r, Careful silent .free (f r)) :
    Careful silent .free ((query q).bind f) :=
  .joint hq fun r => by
    cases r with
    | ok r => exact hf r
    | error e => exact .fail _

theorem careful_redeemInvite {id user : Uuid} {email : String} {f : Bool → Verb β}
    (hf : ∀ r, Careful silent .free (f r)) :
    Careful silent (.holding id) ((query (.redeemInvite id user email)).bind f) :=
  .redeeming fun r => by
    cases r with
    | ok r => exact hf r
    | error e => exact .fail _

theorem careful_reply {p : Verb α} (hp : Careful silent .free p) (f : α → Reply) :
    Careful silent .free (reply p f) :=
  hp.bind (fun _ => .ret _) fun _ _ => trivial

end

/-! ## The verbs -/

theorem Act.Enters.joint {a : Act} (h : a.Enters) : a.Joint := by
  cases a with
  | sql q => cases q <;> first | exact h.elim | trivial
  | _ => trivial

def Request.Answers : Request → Prop
  | .redeem .. | .login .. | .signup .. => True
  | _ => False

/-- The calls of a run beside the sweeps. -/
def Request.Covered : Request → Prop
  | .mintInvite .. | .redeem .. | .revokeAccess .. | .login .. | .signup .. | .handle _ => True
  | _ => False

section
variable {silent : Prop} (P : Portal)

theorem redeem_careful (link email : String) : Careful silent .free (P.redeem link email) := by
  unfold Portal.redeem
  dsimp only
  cases parseCapability link with
  | none => exact .fail _
  | some parts =>
    refine .read (fun e => .fail _) (.fail _) (fun row hs => ?_) fun row hs => ?_
    · have hagrees : P.inviteAgrees parts (P.normalizeEmail email) row = false := by
        simp [Portal.inviteAgrees, hs]
      exact if_pos hagrees
    · show Careful silent (.reading parts.id row.expiresAt)
        (if P.inviteAgrees parts (P.normalizeEmail email) row = false then _ else _)
      by_cases hagrees : P.inviteAgrees parts (P.normalizeEmail email) row = false
      · rw [if_pos hagrees]
        exact .refused
      · rw [if_neg hagrees]
        refine .checking (fun now hlate => if_pos hlate) fun now htime => ?_
        show Careful silent (.holding parts.id) (if row.expiresAt < now then _ else _)
        rw [if_neg htime]
        refine .drawing fun user => careful_redeemInvite fun redeemed => ?_
        cases redeemed with
        | false => exact .fail _
        | true =>
          exact careful_bind (audit_all (fun _ h => h.joint) (by simp)) fun _ =>
            careful_of_all (.bind (mintBearer_all P (fun _ h => h.enters.joint) _ _) fun _ => trivial)

theorem revokeAccess_careful (hs : silent) (user : Uuid) (reason actor : String) :
    Careful silent .free (revokeAccess user reason actor) := by
  refine careful_query trivial fun flipped => ?_
  cases flipped with
  | none => exact .ret _
  | some email =>
    refine careful_bind (revokeAllBearers_all (fun _ h => h.joint) _ _ _) fun _ => .revokePending hs fun r => ?_
    cases r <;> trivial

theorem revokeAccess_mapErr_careful (hs : silent) (g : Halt → Halt) (user : Uuid) (reason actor : String) :
    Careful silent .free ((revokeAccess user reason actor).mapErr g) := by
  refine .joint trivial fun r => ?_
  cases r with
  | error e => exact .fail _
  | ok flipped =>
    cases flipped with
    | none => exact .ret _
    | some email =>
      show Careful silent .free (((revokeAllBearers user reason actor).bind _).mapErr g)
      rw [Prog.mapErr_bind]
      refine careful_bind (revokeAllBearers_all (fun _ h => h.joint) _ _ _).mapErr fun _ =>
        .revokePending hs fun r => ?_
      cases r <;> trivial

theorem lifecycleAudit_audits (label action : String) (env : Envelope) (user : Option Uuid) (sapiens : Uuid) :
    (P.lifecycleAudit label action env user sapiens).All Act.Audits :=
  busQuery_all P trivial

theorem lifecycleAudit_joint (label action : String) (env : Envelope) (user : Option Uuid) (sapiens : Uuid) :
    (P.lifecycleAudit label action env user sapiens).All Act.Joint :=
  busQuery_all P trivial

theorem onUserGone_careful (hs : silent) (env : Envelope) : Careful silent .free (P.onUserGone env) := by
  unfold Portal.onUserGone
  cases UserGonePayload.read env.payload with
  | none => exact .fail _
  | some payload =>
    dsimp only
    cases Uuid.parse payload.userId with
    | none => exact .fail _
    | some sapiens =>
      refine careful_bind (busQuery_all P trivial) fun linked => ?_
      cases linked with
      | none => exact .ret _
      | some user =>
        refine (revokeAccess_mapErr_careful hs _ _ _ _).bind (fun flipped => ?_) fun _ flipped => ?_
        · cases flipped with
          | false => exact .ret _
          | true => exact careful_of_all (lifecycleAudit_joint P _ _ _ _ _)
        · cases flipped with
          | false => trivial
          | true => exact lifecycleAudit_audits P _ _ _ _ _

theorem onCreated_joint (env : Envelope) : (P.onCreated env).All Act.Joint := by
  unfold Portal.onCreated
  cases UserCreatedPayload.read env.payload with
  | none => trivial
  | some payload =>
    dsimp only
    cases Uuid.parse payload.userId with
    | none => trivial
    | some sapiens =>
      refine .bind (busQuery_all P trivial) fun linked => ?_
      cases linked with
      | none => exact lifecycleAudit_joint P _ _ _ _ _
      | some user => exact lifecycleAudit_joint P _ _ _ _ _

theorem handle_careful (hs : silent) (env : Envelope) : Careful silent .free (P.handle env) := by
  unfold Portal.handle
  split
  · exact careful_of_all (onCreated_joint P env)
  split
  · exact onUserGone_careful P hs env
  · exact .fail _

/-- **Every covered call is careful**. -/
theorem serve_careful {t : Request} (ht : t.Covered) : Careful (¬t.Answers) .free (P.serve t) := by
  have joint : ∀ a : Act, a.Enters → a.Joint := fun _ h => h.joint
  cases t with
  | mintInvite email grantedBy ttl =>
    exact careful_reply (careful_of_all (mintInvite_all P joint _ _ _ fun _ _ _ => trivial)) _
  | redeem link email => exact careful_reply (redeem_careful P link email) _
  | revokeAccess user reason actor => exact careful_reply (revokeAccess_careful not_false user reason actor) _
  | login email presented ip => exact careful_reply (careful_of_all (login_all P joint _ _ _)) _
  | signup email presented ip =>
    exact careful_reply (careful_of_all (signup_all P joint (fun _ _ => trivial) _ _ _)) _
  | handle env => exact careful_reply (handle_careful P not_false env) _
  | _ => exact ht.elim

end

end BackbonePortal
