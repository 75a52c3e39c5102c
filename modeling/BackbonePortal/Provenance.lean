import BackbonePortal.Lifetime
import BackbonePortal.Mediation
import BackbonePortal.Refinement

/-!
# Where access comes from

What a run from the empty tables holds, it holds for a reason: a principal was
invited at its address by a call that made the invitation out to it, or signed
up under an open policy with a password the verifier accepted; a bearer was
issued to a principal the issuing call had vouched for, or replaced one that
proved itself.
-/

namespace BackbonePortal

open Proc Tables Registries

/-! ## Reasons -/

abbrev PortalCalls := List (Call portalSig Halt Reply PortalCall)

/-- The reason a principal is registered at an address. -/
inductive Portal.Registered (P : Portal) (calls : PortalCalls) (user : Uuid) (email : String) : Prop where
  | invited {c d : Call portalSig Halt Reply PortalCall} {link presenting raw nonce : String}
    {parts : ParsedCapability} {grantedBy : Option Uuid} {ttl : Int} {expires : Instant}
    (minting : d ∈ calls) (asked : d.tag = .request (.mintInvite raw grantedBy ttl))
    (recipient : P.normalizeEmail raw = email)
    (minted : ⟨.sql (.insertInvite parts.id email nonce expires grantedBy), .ok ()⟩ ∈ d.past)
    (redeeming : c ∈ calls) (presented : c.tag.invitation = some (link, presenting))
    (names : parseCapability link = some parts) (presenter : P.normalizeEmail presenting = email)
    (redeemed : ⟨.sql (.redeemInvite parts.id user email), .ok true⟩ ∈ c.past)
  | enrolled {c : Call portalSig Halt Reply PortalCall} {row : Uuid} (signing : c ∈ calls)
    (signup : c.tag.signsUp = true) (yes : Accepted c.past email)
    (policy : ⟨.sql .policyEnabled, .ok true⟩ ∈ c.past)
    (inserted : ⟨.sql (.insertSignup user email), .ok (some row)⟩ ∈ c.past)

/-- The reason a bearer of the principal exists. -/
inductive Portal.Held (P : Portal) (calls : PortalCalls) (user : Uuid) : Uuid → Prop where
  | issued {c : Call portalSig Halt Reply PortalCall} {id : Uuid} {nonce : String} {expires : Instant}
    (issuing : c ∈ calls) (inserted : ⟨.sql (.insertToken id user nonce expires), .ok ()⟩ ∈ c.past)
    (vouched : (∃ ttl, c.tag = .request (.mintBearer user ttl)) ∨ Vouched c.past user) : Held P calls user id
  | rotated {c : Call portalSig Halt Reply PortalCall} {successor : Uuid} {link nonce : String}
    {parts : ParsedCapability} {expires : Instant} (before : Held P calls user parts.id) (rotating : c ∈ calls)
    (presented : c.tag.rotated = some link) (names : parseCapability link = some parts)
    (proven : P.Proven link c.past user)
    (replaced : ⟨.sql (.rotateToken parts.id successor user nonce expires), .ok true⟩ ∈ c.past) :
    Held P calls user successor

/-! ## What the answers say for good -/

/-- A redemption's principal stays at the address it named. -/
def Places : Event portalSig → World → Prop
  | ⟨.sql (.redeemInvite _ user email), r⟩, w => r = .ok true → ∃ u, w.db.users.get user = some u ∧ u.email = email
  | _, _ => True

theorem places_given (a : Act) (i : Env) (w : World) : Places ⟨a, (a.exec i w).1⟩ (a.exec i w).2 := by
  cases a with
  | sql q =>
    cases q with
    | redeemInvite id user email =>
      intro h
      rcases exec_redeemInvite (Stmt.answer_ok h).2 with ⟨hb, -⟩ | ⟨settled, v, -, -, -, -, -, hi⟩
      · cases hb
      · obtain ⟨users, hu, hdb⟩ := Db.insertUser_ok hi
        have hget := (Table.insert_get_self hu).2
        refine ⟨.fresh user email i.now.stored, ?_, rfl⟩
        show ((Stmt.redeemInvite id user email).answer i w.db).2.users.get user = _
        rw [hdb]
        exact hget
    | _ => trivial
  | _ => trivial

theorem places_later (ev : Event portalSig) (a : Act) (i : Env) (w : World) (h : Places ev w) :
    Places ev (a.exec i w).2 := by
  unfold Places at h ⊢
  split
  · intro hr
    obtain ⟨u, hu, he⟩ := h hr
    obtain ⟨v, hv, hkeeps⟩ := (grows_exec a i w).users.get hu
    exact ⟨v, hv, hkeeps.1.trans he⟩
  · trivial

/-! ## The provenance of a run -/

section
variable (P : Portal) {pool : PortalPool} (hcalls : pool.calls = []) (ms : List PortalMove)
include hcalls

theorem run_heeded : ∀ c ∈ (pool.play (PortalCall.verb P) ms).calls, c.Heeded (P.Entitled c.tag) :=
  Pool.play_heeds (PortalCall.verb P) (verb_heeds P) hcalls ms

theorem run_places {c : Call portalSig Halt Reply PortalCall} (hc : c ∈ (pool.play (PortalCall.verb P) ms).calls)
    {ev : Event portalSig} (hev : ev ∈ c.past) : Places ev (pool.play (PortalCall.verb P) ms).world := by
  obtain ⟨j, hj⟩ := List.getElem?_of_mem hc
  exact Pool.play_past (M := portalMachine) (PortalCall.verb P) places_given places_later pool hcalls ms
    j c hj ev hev

theorem run_says {c : Call portalSig Halt Reply PortalCall} (hc : c ∈ (pool.play (PortalCall.verb P) ms).calls)
    {ev : Event portalSig} (hev : ev ∈ c.past) : Says ev (pool.play (PortalCall.verb P) ms).world := by
  obtain ⟨j, hj⟩ := List.getElem?_of_mem hc
  exact Pool.play_past (M := portalMachine) (PortalCall.verb P) says_given
    (fun ev a i w h => h.later ev (grows_exec a i w)) pool hcalls ms j c hj ev hev

end

/-- The answered statement behind a change that makes an entry. -/
def Behind (ev : Event portalSig) : AccessChange → Prop
  | .invite id email => ∃ nonce expires grantedBy,
      ev = ⟨.sql (.insertInvite id email nonce expires grantedBy), .ok ()⟩
  | .redeem id user => ∃ email, ev = ⟨.sql (.redeemInvite id user email), .ok true⟩
  | .enroll user email => ∃ row, ev = ⟨.sql (.insertSignup user email), .ok (some row)⟩
  | .issue id user => ∃ nonce expires, ev = ⟨.sql (.insertToken id user nonce expires), .ok ()⟩
  | .rotate id successor => ∃ user nonce expires,
      ev = ⟨.sql (.rotateToken id successor user nonce expires), .ok true⟩
  | _ => True

theorem causes_behind {ev : Event portalSig} {c : AccessChange} (h : Causes ev c) : Behind ev c := by
  unfold Causes at h
  split at h
  case h_5 => obtain ⟨due, rfl⟩ := h; trivial
  case h_12 => exact h.elim
  all_goals
    subst h
    first
    | trivial
    | exact ⟨_, rfl⟩
    | exact ⟨_, _, rfl⟩
    | exact ⟨_, _, _, rfl⟩

section
variable (P : Portal) {pool : PortalPool} (hcalls : pool.calls = []) (hdb : pool.world.db = .empty)
  (ms : List PortalMove)
include hcalls hdb

theorem run_history : (pool.play (PortalCall.verb P) ms).world.db.Sound ∧ ∃ cs : List AccessChange,
    (Registry.model Uuid String Uuid Uuid).Permits Db.empty.registry cs ∧
    (pool.play (PortalCall.verb P) ms).world.db.registry =
      (Registry.model Uuid String Uuid Uuid).replay Db.empty.registry cs ∧
    ∀ change ∈ cs, ∃ c ∈ (pool.play (PortalCall.verb P) ms).calls, ∃ ev ∈ c.past, Causes ev change := by
  rw [← hdb]
  exact run_retold P hcalls (hdb ▸ sound_empty) ms

theorem principal_registered {user : Uuid} {u : PortalUser}
    (hu : (pool.play (PortalCall.verb P) ms).world.db.users.get user = some u) :
    P.Registered (pool.play (PortalCall.verb P) ms).calls user u.email := by
  obtain ⟨-, cs, hpermits, hreplay, hcaused⟩ := run_history P hcalls hdb ms
  have hentry := registry_principal hu
  rw [hreplay] at hentry
  rcases Registry.principal_origin hpermits hentry with ⟨y, hy⟩ | henroll | ⟨i, hredeem, ⟨y, hy⟩ | hinvite⟩
  · cases hy
  · obtain ⟨c, hc, ev, hev, hcause⟩ := hcaused _ henroll
    obtain ⟨row, rfl⟩ := causes_behind hcause
    obtain ⟨before, hsub, hsign, hyes, hopen⟩ := (run_heeded P hcalls ms c hc).required hev
    exact .enrolled hc hsign (hyes.later hsub) (hsub hopen) hev
  · cases hy
  · obtain ⟨c, hc, ev, hev, hcause⟩ := hcaused _ hredeem
    obtain ⟨email, rfl⟩ := causes_behind hcause
    obtain ⟨d, hd, ev', hev', hcause'⟩ := hcaused _ hinvite
    obtain ⟨nonce, expires, grantedBy, rfl⟩ := causes_behind hcause'
    -- the redeeming call names the address of the row it admitted
    obtain ⟨v, hv, rfl⟩ : ∃ v : PortalUser, _ = some v ∧ v.email = email := run_places P hcalls ms hc hev rfl
    obtain rfl : u = v := Option.some.inj (hu.symm.trans hv)
    obtain ⟨before, hsub, link, presenting, parts, row, hpresented, hparts, rfl, -, hagrees, hrow⟩ :=
      (run_heeded P hcalls ms c hc).required hev
    obtain ⟨before', -, raw, ttl, hasked, hrecipient⟩ := (run_heeded P hcalls ms d hd).required hev'
    exact .invited hd hasked hrecipient.symm hev' hc hpresented hparts
      ((inviteAgrees_email P hagrees).trans hrow) hev

theorem bearer_held {id : Uuid} {t : PortalToken}
    (ht : (pool.play (PortalCall.verb P) ms).world.db.tokens.get id = some t) :
    P.Held (pool.play (PortalCall.verb P) ms).calls t.userId id := by
  obtain ⟨-, cs, hpermits, hreplay, hcaused⟩ := run_history P hcalls hdb ms
  have hlawful := Registry.Lawful.replay lawful_empty hpermits
  have hentry := registry_bearer ht
  rw [hreplay] at hentry
  obtain ⟨b₀, hdesc, ⟨g, hg⟩ | hissue⟩ := Registry.bearer_origin hpermits hentry
  · cases hg
  -- along the chain of rotations; each predecessor belongs to the same principal
  have hchain : ∀ f, ((Registry.model Uuid String Uuid Uuid).replay Db.empty.registry cs).bearer id =
      some (t.userId, f) → P.Held (pool.play (PortalCall.verb P) ms).calls t.userId id := by
    clear hentry ht
    induction hdesc with
    | refl =>
      intro f _
      obtain ⟨c, hc, ev, hev, hcause⟩ := hcaused _ hissue
      obtain ⟨nonce, expires, rfl⟩ := causes_behind hcause
      obtain ⟨before, hsub, hvouched⟩ := (run_heeded P hcalls ms c hc).required hev
      exact .issued hc hev (hvouched.imp_right fun h => h.later hsub)
    | @tail b s _ hrotate ih =>
      intro f hs
      obtain ⟨p, hb⟩ := Registry.rotate_recorded hpermits hrotate
      obtain ⟨f', hs'⟩ := hlawful.followed b p s hb
      obtain rfl : p = t.userId := (Prod.mk.inj (Option.some.inj (hs'.symm.trans hs))).1
      obtain ⟨c, hc, ev, hev, hcause⟩ := hcaused _ hrotate
      obtain ⟨user, nonce, expires, rfl⟩ := causes_behind hcause
      obtain ⟨r, hr, rfl, -⟩ : Db.HasBearer _ s user nonce expires := run_says P hcalls ms hc hev rfl
      have howner := registry_bearer hr
      rw [hreplay, hs] at howner
      have huser : t.userId = r.userId := (Prod.mk.inj (Option.some.inj howner)).1
      obtain ⟨before, hsub, link, parts, hpresented, hparts, rfl, hproven⟩ :=
        (run_heeded P hcalls ms c hc).required hev
      rw [← huser] at hev hproven
      exact .rotated (ih _ hb) hc hpresented hparts (hproven.later hsub) hev
  exact hchain _ hentry

end

/-- **Provenance.** After every run from the empty tables, each principal and
each bearer in them is there for a reason found in the calls of the run. -/
theorem access_provenance (P : Portal) (pool : PortalPool) (hcalls : pool.calls = [])
    (hdb : pool.world.db = .empty) (ms : List PortalMove) :
    (∀ user u, (pool.play (PortalCall.verb P) ms).world.db.users.get user = some u →
      P.Registered (pool.play (PortalCall.verb P) ms).calls user u.email) ∧
    (∀ id t, (pool.play (PortalCall.verb P) ms).world.db.tokens.get id = some t →
      P.Held (pool.play (PortalCall.verb P) ms).calls t.userId id) :=
  ⟨fun _ _ hu => principal_registered P hcalls hdb ms hu, fun _ _ ht => bearer_held P hcalls hdb ms ht⟩

namespace Probe

/-- An officer opens the signup and a visitor signs up. -/
def welcomed : List PortalMove :=
  .start (.request (.setSignupPolicy true none none)) :: List.replicate 3 (.step 0 env) ++
    .start (.request (.signup email "open sesame" "::1")) :: List.replicate 15 (.step 1 env)

end Probe

theorem access_provenance_probe :
    Probe.portal.Registered ((Probe.stage .empty).play (PortalCall.verb Probe.portal) Probe.welcomed).calls
      (Probe.uuid 2) Probe.email ∧
    Probe.portal.Held ((Probe.stage .empty).play (PortalCall.verb Probe.portal) Probe.welcomed).calls
      (Probe.uuid 2) (Probe.uuid 2) := by
  have hrows : (((Probe.stage .empty).play (PortalCall.verb Probe.portal) Probe.welcomed).world.db.users.get
      (Probe.uuid 2)).map (·.email) = some Probe.email ∧
      (((Probe.stage .empty).play (PortalCall.verb Probe.portal) Probe.welcomed).world.db.tokens.get
        (Probe.uuid 2)).map (·.userId) = some (Probe.uuid 2) := by decide +kernel
  obtain ⟨u, hu, hemail⟩ := Option.map_eq_some_iff.mp hrows.1
  obtain ⟨t, ht, howner⟩ := Option.map_eq_some_iff.mp hrows.2
  obtain ⟨hregistered, hheld⟩ := access_provenance Probe.portal (Probe.stage .empty) rfl rfl Probe.welcomed
  have hregistered := hregistered _ u hu
  have hheld := hheld _ t ht
  rw [hemail] at hregistered
  rw [howner] at hheld
  exact ⟨hregistered, hheld⟩

end BackbonePortal
