import BackbonePortal.Families
import BackbonePortal.Provenance
import BackbonePortal.Recording

/-!
# Every link is handed out once

A bearer or an invitation link names the row it was rendered from, and a row is
inserted once. So no two calls hand out the same link, whatever the generators
draw and however the calls are interleaved.
-/

namespace BackbonePortal

open Proc Tables

/-! ## What a call hands out -/

/-- The token of a response. -/
def Response.token (r : Response) : Option String :=
  match r.body with
  | .json (.obj fields) => Json.text fields "token"
  | _ => none

namespace PortalCall

/-- The bearer in the reply. -/
def bearerOf : PortalCall → Reply → Option String
  | .request (.mintBearer ..), .link l | .request (.rotateBearer ..), .link l => some l
  | .request _, .admitted _ l => some l
  | .request (.route _), .response r => r.token
  | _, _ => none

/-- The invitation link in the reply. -/
def inviteOf : PortalCall → Reply → Option String
  | .request (.mintInvite ..), .link l => some l
  | _, _ => none

end PortalCall

/-- What the finished call handed out. -/
def handed (f : PortalCall → Reply → Option String) (c : Call portalSig Halt Reply PortalCall) :
    Option String :=
  match c.outcome with
  | some (.ok r) => f c.tag r
  | _ => none

theorem handed_eq_some {f : PortalCall → Reply → Option String} {c : Call portalSig Halt Reply PortalCall}
    {l : String} (h : handed f c = some l) : ∃ r, c.outcome = some (.ok r) ∧ f c.tag r = some l := by
  unfold handed at h
  split at h
  next r ho => exact ⟨r, ho, h⟩
  next => cases h

/-- The invitation link was rendered from a row the events inserted. -/
def Portal.Invited (P : Portal) (link : String) (evs : Past) : Prop :=
  ∃ id email nonce expires grantedBy, ⟨.sql (.insertInvite id email nonce expires grantedBy), .ok ()⟩ ∈ evs ∧
    P.inviteLink id nonce email expires.timestamp = .ok link

/-- What the reply hands out was issued on the way to it. -/
def Portal.HandsOut (P : Portal) (t : PortalCall) (r : Reply) (evs : Past) : Prop :=
  (∀ l, t.bearerOf r = some l → ∃ user, P.Issued user l evs) ∧ ∀ l, t.inviteOf r = some l → P.Invited l evs

/-! ## Links and rows -/

theorem renderLink_id {id id' : Uuid} {nonce nonce' mac mac' : String} {exp exp' : Int}
    (h : renderLink id nonce exp mac = renderLink id' nonce' exp' mac') : id = id' := by
  have htake : ∀ (id : Uuid) nonce exp mac,
      (renderLink id nonce exp mac).toList.take 36 = id.display.toList := by
    intro id nonce exp mac
    simp only [renderLink, String.toList_append, List.append_assoc]
    rw [← Uuid.display_length id, List.take_left]
  have hlist : id.display.toList = id'.display.toList := by
    rw [← htake id nonce exp mac, h, htake]
  exact Uuid.display_inj (String.toList_inj.mp hlist)

section
variable {P : Portal} {id user : Uuid} {nonce email link : String}

theorem bearerLink_renders {expires : Instant} (h : P.bearerLink id user nonce expires = .ok link) :
    ∃ mac, link = renderLink id nonce expires.timestamp mac := by
  unfold Portal.bearerLink at h
  by_cases hs : P.bearerSecret = []
  · rw [Portal.secret, if_pos hs] at h
    cases h
  · rw [Portal.secret, if_neg hs] at h
    exact ⟨_, (Except.ok.inj h).symm⟩

theorem inviteLink_renders {exp : Int} (h : P.inviteLink id nonce email exp = .ok link) :
    ∃ mac, link = renderLink id nonce exp mac := by
  unfold Portal.inviteLink at h
  by_cases hs : P.bearerSecret = []
  · rw [Portal.secret, if_pos hs] at h
    cases h
  · rw [Portal.secret, if_neg hs] at h
    exact ⟨_, (Except.ok.inj h).symm⟩

end

/-- The event put the bearer's row in the table. -/
def Puts (id : Uuid) : Event portalSig → Prop
  | ⟨.sql (.insertToken k ..), r⟩ => k = id ∧ r = .ok ()
  | ⟨.sql (.rotateToken _ k ..), r⟩ => k = id ∧ r = .ok true
  | _ => False

theorem puts_fires (id : Uuid) (a : Act) (i : Env) (w : World) (h : Puts id ⟨a, (a.exec i w).1⟩) :
    ¬(Edge.bearerMinted id).Done w ∧ (Edge.bearerMinted id).Done (a.exec i w).2 := by
  cases a with
  | sql q =>
    cases q with
    | insertToken k user nonce expires =>
      obtain ⟨rfl, hr⟩ := h
      exact insertToken_fires hr
    | rotateToken old k user nonce expires =>
      obtain ⟨rfl, hr⟩ := h
      rcases exec_rotateToken (Stmt.answer_ok hr).2 with ⟨hb, -⟩ | ⟨spent, t, -, -, -, -, hu, hi⟩
      · cases hb
      obtain ⟨tokens, hinsert, -, hdb⟩ := Db.insertToken_ok hi
      obtain ⟨hnone, hsome⟩ := Table.insert_get_self hinsert
      constructor
      · intro hdone
        obtain ⟨t', ht'⟩ := Option.isSome_iff_exists.mp hdone
        have hkept := Table.update_get hu k
        rw [ht', Option.map_some] at hkept
        cases hkept.symm.trans hnone
      · show (((Stmt.rotateToken old k user nonce expires).answer i w.db).2.tokens.get k).isSome = true
        rw [hdb]
        exact Option.isSome_iff_exists.mpr ⟨_, hsome⟩
    | _ => exact h.elim
  | _ => exact h.elim

/-! ## What the verbs hand out -/

section
variable {P : Portal} {α : Type}

theorem invited_more : Extends P.Invited := by
  rintro link evs evs' hsub ⟨id, email, nonce, expires, grantedBy, hrow, hlink⟩
  exact ⟨id, email, nonce, expires, grantedBy, hsub hrow, hlink⟩

theorem mintInvite_invited (email : String) (grantedBy : Option Uuid) (ttl : Int) :
    (P.mintInvite email grantedBy ttl).Yields P.Invited := by
  unfold Portal.mintInvite
  dsimp only
  split
  · exact Prog.yields_fail
  refine Prog.yields_bind_right invited_more fun id => Prog.yields_bind_right invited_more fun nonce =>
    Prog.yields_bind_right invited_more fun now => Prog.yields_bind_right invited_more fun expires =>
    yields_query fun _ => yields_query fun _ => ?_
  cases hlink : P.inviteLink id nonce (P.normalizeEmail email) expires.timestamp with
  | error e => exact Prog.yields_fail
  | ok link =>
    intro l hl
    cases hl
    exact ⟨id, P.normalizeEmail email, nonce, expires, grantedBy, by simp, hlink⟩

theorem bearerResponse_token (status : Nat) (bearer : String) :
    (bearerResponse status bearer).token = some bearer := by
  simp only [bearerResponse, Response.token, Json.object, List.foldl_cons, List.foldl_nil]
  rw [Json.text_insert_other (by decide), Json.text_insert_self]

theorem object_token {status : Nat} {headers : List (String × String)} {fields : List (String × Json)}
    (h : "token" ∉ fields.map Prod.fst) : (Response.mk status headers (.json (.object fields))).token = none :=
  Json.text_lacks (Json.lacks_object h)

theorem refused_token : refused.token = none := object_token (by simp)

theorem portalErrorResponse_token (e : PortalError) : (P.portalErrorResponse e).token = none := by
  cases e with
  | credentialRefused => exact refused_token
  | invalidCredentials => exact refused_token
  | _ => exact object_token (by simp)

/-- The token of the response was issued on the way. -/
def Portal.Serves (P : Portal) (r : Response) (evs : Past) : Prop :=
  ∀ l, r.token = some l → ∃ user, P.Issued user l evs

theorem serves_more : Extends P.Serves := by
  intro r evs evs' hsub h l hl
  obtain ⟨user, hissued⟩ := h l hl
  exact ⟨user, hissued.more hsub⟩

/-- An answer without a token. -/
theorem serves_silent {p : Verb Response} (h : p.Ends fun o => ∀ r, o = .ok r → r.token = none) :
    p.Yields P.Serves := by
  refine Prog.yields_of_ends (h.mono fun o ho r hr evs l hl => ?_)
  rw [ho r hr] at hl
  cases hl

theorem answered_serves {p : Verb α} {status : Nat} {f : α → String} {err : PortalError → Verb Response}
    (hp : p.Yields fun a evs => ∃ user, P.Issued user (f a) evs)
    (herr : ∀ e, (err e).Ends fun o => ∀ r, o = .ok r → r.token = none) :
    (answered p (fun a => bearerResponse status (f a)) err).Yields P.Serves := by
  refine Prog.Yields.bind serves_more hp.attempt fun o evs ho => ?_
  cases o with
  | ok a =>
    intro r hr l hl
    cases hr
    rw [bearerResponse_token] at hl
    cases hl
    exact ho a rfl
  | error h =>
    cases h with
    | err e =>
      refine (herr e).mono fun o ho r hr l hl => ?_
      rw [ho r hr] at hl
      cases hl
    | event name message =>
      intro r hr
      cases hr
    | panicked message =>
      intro r hr
      cases hr

theorem extract_serves {body : Body α} {handler : α → Verb Response} (h : ∀ b, (handler b).Yields P.Serves) :
    (extract body handler).Yields P.Serves := by
  cases body with
  | ok b => exact h b
  | error e =>
    intro r hr l hl
    cases hr
    cases hl

theorem error_silent (e : PortalError) :
    (pure (P.portalErrorResponse e) : Verb Response).Ends fun o => ∀ r, o = .ok r → r.token = none := by
  intro r hr
  cases hr
  exact portalErrorResponse_token e

theorem refused_silent : (pure refused : Verb Response).Ends fun o => ∀ r, o = .ok r → r.token = none := by
  intro r hr
  cases hr
  exact refused_token

theorem silent_after (p : Verb α) {f : α → Verb Response}
    (hf : ∀ a, (f a).Ends fun o => ∀ r, o = .ok r → r.token = none) :
    (p.bind f).Ends fun o => ∀ r, o = .ok r → r.token = none := by
  refine Prog.ends_bind_right p hf fun e r hr => ?_
  cases hr

theorem admits_issued {p : Verb (Uuid × String)} (hp : p.Yields P.Admits) :
    p.Yields fun r evs => ∃ user, P.Issued user r.2 evs :=
  Prog.Paths.mono (fun _ _ h r hr => ⟨r.1, h r hr⟩) hp

theorem route_serves (request : RouteRequest) : (P.route request).Yields P.Serves := by
  cases request with
  | redeemInvite headers body =>
    refine extract_serves fun b => answered_serves (admits_issued redeem_yields) fun e => ?_
    cases e with
    | credentialRefused => exact silent_after _ fun _ => silent_after _ fun _ => refused_silent
    | _ => exact error_silent _
  | login headers body =>
    exact extract_serves fun b => answered_serves (admits_issued login_yields) error_silent
  | signup headers body =>
    exact extract_serves fun b => answered_serves (admits_issued signup_yields) error_silent
  | rotate headers body =>
    refine extract_serves fun b => Prog.yields_bind_right serves_more fun o => ?_
    split
    · exact serves_silent (error_silent _)
    · exact Prog.yields_fail
    · have hissued : (P.rotateBearer b.token defaultBearerTtlHours).Yields fun l evs =>
          ∃ user, P.Issued user l evs :=
        (rotateBearer_yields P _ _).mono fun evs o h l hl => (h l hl).imp fun user hl => hl.1
      refine answered_serves (f := fun l => l) hissued fun e => ?_
      cases e with
      | credentialRefused => exact silent_after _ fun _ => refused_silent
      | _ => exact error_silent _

theorem replies_bearer {t : Request} {r : Reply} {evs : Past} {l : String} (ht : ∀ request, t ≠ .route request)
    (h : P.Replies t r evs) (hl : (PortalCall.request t).bearerOf r = some l) :
    ∃ user, P.Issued user l evs := by
  unfold PortalCall.bearerOf at hl
  split at hl
  next user ttl link hcall =>
    cases hcall
    cases hl
    exact ⟨user, h⟩
  next old ttl link hcall =>
    cases hcall
    cases hl
    obtain ⟨user, hissued, -⟩ := h
    exact ⟨user, hissued⟩
  next user link hcall =>
    cases hcall
    cases hl
    exact ⟨user, replies_admitted h⟩
  next request response hcall =>
    cases hcall
    exact absurd rfl (ht request)
  next => cases hl

theorem serve_handsOut (t : Request) : (P.serve t).Yields (P.HandsOut (.request t)) := by
  have hserve := serve_replies P t
  cases t with
  | mintInvite email grantedBy ttl =>
    refine Prog.Yields.map (fun l evs h => ⟨fun l' hl => ?_, fun l' hl => ?_⟩)
      (mintInvite_invited email grantedBy ttl)
    · cases hl
    · cases hl
      exact h
  | route request =>
    refine Prog.Yields.map (fun r evs h => ⟨h, fun l hl => ?_⟩) (route_serves request)
    cases hl
  | _ =>
    refine hserve.mono fun evs o h r hr => ⟨fun l hl => replies_bearer (by simp) (h r hr) hl, fun l hl => ?_⟩
    cases hl

/-- A call that hands out nothing. -/
theorem handsOut_nothing {t : PortalCall} (hbearer : ∀ r, t.bearerOf r = none)
    (hinvite : ∀ r, t.inviteOf r = none) (p : Verb Reply) : p.Yields (P.HandsOut t) := by
  refine Prog.paths_of_forall (fun evs o r _ => ⟨fun l hl => ?_, fun l hl => ?_⟩) p
  · rw [hbearer r] at hl
    cases hl
  · rw [hinvite r] at hl
    cases hl

theorem verb_handsOut (P : Portal) (t : PortalCall) : (t.verb P).Yields (P.HandsOut t) := by
  cases t with
  | request t => exact serve_handsOut t
  | customer call => exact handsOut_nothing (fun _ => rfl) (fun _ => rfl) _
  | mintRecipient user email => exact handsOut_nothing (fun _ => rfl) (fun _ => rfl) _

end

/-! ## Runs -/

/-- The event put the invitation's row in the table. -/
def PutsInvite (id : Uuid) (ev : Event portalSig) : Prop := (Edge.inviteMinted id).takes ev = true

theorem putsInvite_fires (id : Uuid) (a : Act) (i : Env) (w : World) (h : PutsInvite id ⟨a, (a.exec i w).1⟩) :
    ¬(Edge.inviteMinted id).Done w ∧ (Edge.inviteMinted id).Done (a.exec i w).2 := takes_fires a i w h

section
variable {P : Portal} {pool : PortalPool} {user : Uuid} {l : String} {evs : Past}

theorem Portal.Issued.puts (h : P.Issued user l evs) :
    ∃ id nonce exp mac, l = renderLink id nonce exp mac ∧ ∃ ev ∈ evs, Puts id ev := by
  obtain ⟨id, nonce, expires, -, -, hlink, hrow⟩ := h
  obtain ⟨mac, hl⟩ := bearerLink_renders hlink
  refine ⟨id, nonce, expires.timestamp, mac, hl, ?_⟩
  rcases hrow with hrow | ⟨old, hrow⟩
  · exact ⟨_, hrow, rfl, rfl⟩
  · exact ⟨_, hrow, rfl, rfl⟩

theorem Portal.Invited.puts (h : P.Invited l evs) :
    ∃ id nonce exp mac, l = renderLink id nonce exp mac ∧ ∃ ev ∈ evs, PutsInvite id ev := by
  obtain ⟨id, email, nonce, expires, grantedBy, hrow, hlink⟩ := h
  obtain ⟨mac, hl⟩ := inviteLink_renders hlink
  exact ⟨id, nonce, expires.timestamp, mac, hl, _, hrow, decide_eq_true rfl⟩

end

/-- **Handed out once.** In every run, whatever is interleaved and drawn, no two
calls hand out the same bearer or the same invitation link, and a bearer that
was handed out has its row. -/
theorem links_issued_once (P : Portal) (pool : PortalPool) (hcalls : pool.calls = []) (ms : List PortalMove) :
    (∀ (j j' : Nat) (c c' : Call portalSig Halt Reply PortalCall) (l : String),
      (pool.play (PortalCall.verb P) ms).calls[j]? = some c →
      (pool.play (PortalCall.verb P) ms).calls[j']? = some c' →
      (handed PortalCall.bearerOf c = some l ∧ handed PortalCall.bearerOf c' = some l) ∨
        (handed PortalCall.inviteOf c = some l ∧ handed PortalCall.inviteOf c' = some l) → j = j') ∧
    ∀ c ∈ (pool.play (PortalCall.verb P) ms).calls, ∀ l, handed PortalCall.bearerOf c = some l →
      ∃ id user nonce expires, P.bearerLink id user nonce expires = .ok l ∧
        (pool.play (PortalCall.verb P) ms).world.db.HasBearer id user nonce expires := by
  have hpaths := Pool.play_paths (M := portalMachine) (PortalCall.verb P) (verb_handsOut P) pool hcalls ms
  have hbearers := fun id => (Pool.play_once (M := portalMachine) (PortalCall.verb P) (puts_fires id)
    (fun _ _ _ h => done_exec h) pool hcalls ms).2
  have hinvites := fun id => (Pool.play_once (M := portalMachine) (PortalCall.verb P) (putsInvite_fires id)
    (fun _ _ _ h => done_exec h) pool hcalls ms).2
  constructor
  · rintro j j' c c' l hj hj' (⟨hl, hl'⟩ | ⟨hl, hl'⟩)
    · obtain ⟨r, ho, hr⟩ := handed_eq_some hl
      obtain ⟨r', ho', hr'⟩ := handed_eq_some hl'
      obtain ⟨user, hissued⟩ := (hpaths j c _ hj ho r rfl).1 l hr
      obtain ⟨user', hissued'⟩ := (hpaths j' c' _ hj' ho' r' rfl).1 l hr'
      obtain ⟨id, nonce, exp, mac, hrender, hputs⟩ := hissued.puts
      obtain ⟨id', nonce', exp', mac', hrender', hputs'⟩ := hissued'.puts
      obtain rfl := renderLink_id (hrender.symm.trans hrender')
      exact hbearers id j j' c c' hj hj' hputs hputs'
    · obtain ⟨r, ho, hr⟩ := handed_eq_some hl
      obtain ⟨r', ho', hr'⟩ := handed_eq_some hl'
      obtain ⟨id, nonce, exp, mac, hrender, hputs⟩ := ((hpaths j c _ hj ho r rfl).2 l hr).puts
      obtain ⟨id', nonce', exp', mac', hrender', hputs'⟩ := ((hpaths j' c' _ hj' ho' r' rfl).2 l hr').puts
      obtain rfl := renderLink_id (hrender.symm.trans hrender')
      exact hinvites id j j' c c' hj hj' hputs hputs'
  · intro c hc l hl
    obtain ⟨r, ho, hr⟩ := handed_eq_some hl
    obtain ⟨j, hj⟩ := List.getElem?_of_mem hc
    obtain ⟨user, id, nonce, expires, -, -, hlink, hrow⟩ := (hpaths j c _ hj ho r rfl).1 l hr
    refine ⟨id, user, nonce, expires, hlink, ?_⟩
    rcases hrow with hrow | ⟨old, hrow⟩
    · exact run_says P hcalls ms hc hrow rfl
    · exact run_says P hcalls ms hc hrow rfl

namespace Probe

/-- Two logins, one after the other. -/
def sessions : List PortalMove :=
  .start (.request (.login email "open sesame" "::1")) ::
    List.replicate 14 (.step 0 { env with uuid := uuid 3 }) ++
  .start (.request (.login email "open sesame" "::1")) ::
    List.replicate 14 (.step 1 { env with uuid := uuid 4, nonce := 1 })

end Probe

theorem links_issued_once_probe :
    ∃ l l', ((Probe.stage Probe.enrolled).play (PortalCall.verb Probe.portal) Probe.sessions).calls.map
      (handed PortalCall.bearerOf) = [some l, some l'] ∧ l ≠ l' := by
  have hhanded : ((Probe.stage Probe.enrolled).play (PortalCall.verb Probe.portal) Probe.sessions).calls.map
      (fun c => (handed PortalCall.bearerOf c).isSome) = [true, true] := by decide +kernel
  obtain ⟨c, rest, hcalls, hc, hrest⟩ := List.map_eq_cons_iff.mp hhanded
  obtain ⟨c', rest', rfl, hc', hnil⟩ := List.map_eq_cons_iff.mp hrest
  obtain rfl := List.map_eq_nil_iff.mp hnil
  obtain ⟨l, hl⟩ := Option.isSome_iff_exists.mp hc
  obtain ⟨l', hl'⟩ := Option.isSome_iff_exists.mp hc'
  refine ⟨l, l', by rw [hcalls, List.map_cons, List.map_cons, hl, hl']; rfl, ?_⟩
  rintro rfl
  have hsame := (links_issued_once Probe.portal (Probe.stage Probe.enrolled) rfl Probe.sessions).1 0 1 c c' l
    (by rw [hcalls]; rfl) (by rw [hcalls]; rfl) (.inl ⟨hl, hl'⟩)
  cases hsame

end BackbonePortal
