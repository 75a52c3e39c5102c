import BackbonePortal.Alone
import BackbonePortal.Footprint
import BackbonePortal.Rendering
import BackbonePortal.Verification

/-!
# The life of a bearer

A link a verb returned names the row the verb inserted, and from then on its
verification depends on that row, on the principal and on the clock alone.
-/

namespace BackbonePortal

open Proc Tables

/-! ## The row of an issued link -/

/-- The column keeps the instant to the microsecond, rounding down, and its
whole seconds are an `i64`. -/
def Instant.Kept (t : Instant) : Prop := t.stored = Int.fdiv t 1000 * 1000 ∧ -(2 ^ 63) ≤ t.timestamp

/-- The row was inserted for the principal with this nonce and expiry. -/
def Db.HasBearer (db : Db) (id user : Uuid) (nonce : String) (expires : Instant) : Prop :=
  ∃ t, db.tokens.get id = some t ∧ t.userId = user ∧ t.tokenNonce = nonce ∧ t.tokenExpiresAt = expires.stored ∧
    (db.users.get user).isSome

theorem Db.HasBearer.later {db db' : Db} {id user : Uuid} {nonce : String} {expires : Instant}
    (h : db.HasBearer id user nonce expires) (he : Evolves db db') : db'.HasBearer id user nonce expires := by
  obtain ⟨t, ht, hu, hn, hx, howner⟩ := h
  obtain ⟨u, hget⟩ := Option.isSome_iff_exists.mp howner
  obtain ⟨s, hs, hsu, hsn, hsx, -⟩ := he.tokens.get ht
  obtain ⟨v, hv, -⟩ := he.users.get hget
  exact ⟨s, hs, hsu.trans hu, hsn.trans hn, hsx.trans hx, by rw [hv]; rfl⟩

theorem insertToken_hasBearer {db db' : Db} {id user : Uuid} {nonce : String} {expires now : Instant}
    (h : db.insertToken (.fresh id user nonce expires now) = .ok db') :
    db'.HasBearer id user nonce expires := by
  obtain ⟨tokens, ht, howner, rfl⟩ := Db.insertToken_ok h
  exact ⟨_, (Table.insert_get_self ht).2, rfl, rfl, rfl, howner⟩

/-- What the answer of an action says of the database from then on. -/
def Says : Event portalSig → World → Prop
  | ⟨.mintNonce, nonce⟩, _ => ∃ bits, nonce = nonceOf bits
  | ⟨.sql (.insertToken id user nonce expires), r⟩, w => r = .ok () → w.db.HasBearer id user nonce expires
  | ⟨.sql (.rotateToken _ id user nonce expires), r⟩, w => r = .ok true → w.db.HasBearer id user nonce expires
  | _, _ => True

theorem says_given (a : Act) (i : Env) (w : World) : Says ⟨a, (a.exec i w).1⟩ (a.exec i w).2 := by
  cases a with
  | mintNonce => exact ⟨i.nonce, rfl⟩
  | sql q =>
    cases q with
    | insertToken id user nonce expires =>
      exact fun h => insertToken_hasBearer (exec_insertToken (Stmt.answer_ok h).2)
    | rotateToken old id user nonce expires =>
      intro h
      rcases exec_rotateToken (Stmt.answer_ok h).2 with ⟨hb, -⟩ | ⟨spent, t, -, -, -, -, -, hi⟩
      · cases hb
      · exact insertToken_hasBearer hi
    | _ => trivial
  | _ => trivial

theorem Says.later (ev : Event portalSig) {w w' : World} (h : Says ev w) (hg : Grows w w') : Says ev w' := by
  unfold Says at h ⊢
  split
  · exact h
  · exact fun hr => (h hr).later hg
  · exact fun hr => (h hr).later hg
  · trivial

/-! ## Who issues a link -/

/-- The events drew a nonce and put the row of the link into the table. -/
def Portal.Issued (P : Portal) (user : Uuid) (link : String) (evs : List (Event portalSig)) : Prop :=
  ∃ id nonce expires, ⟨.mintNonce, nonce⟩ ∈ evs ∧ expires ≤ maxUtc ∧
    P.bearerLink id user nonce expires = .ok link ∧
    (⟨.sql (.insertToken id user nonce expires), .ok ()⟩ ∈ evs ∨
      ∃ old, ⟨.sql (.rotateToken old id user nonce expires), .ok true⟩ ∈ evs)

section
variable {P : Portal} {user : Uuid} {link : String}

theorem Portal.Issued.more {evs evs' : List (Event portalSig)} (hsub : evs ⊆ evs')
    (h : P.Issued user link evs) :
    P.Issued user link evs' := by
  obtain ⟨id, nonce, expires, hn, hx, hl, hrow⟩ := h
  exact ⟨id, nonce, expires, hsub hn, hx, hl, hrow.imp (fun h => hsub h) fun ⟨old, h⟩ => ⟨old, hsub h⟩⟩

theorem mintBearer_yields (P : Portal) (user : Uuid) (ttl : Int) :
    (P.mintBearer user ttl).Yields (P.Issued user) := by
  unfold Portal.mintBearer
  by_cases hs : P.bearerSecret = []
  · rw [Portal.secret, if_pos hs]
    exact Prog.yields_fail
  rw [secret_eq hs]
  intro id nonce now
  show (Prog.bind (lifetime "hours" 3600 (max ttl 1) now) _).Paths _
  rcases lifetime_eq "hours" 3600 (max ttl 1) now with ⟨hlasts, hlife⟩ | ⟨-, m, hlife⟩
  · rw [hlife]
    intro r
    cases r with
    | error e =>
      intro link h
      cases h
    | ok u =>
      intro r
      cases r with
      | error e =>
        intro link h
        cases h
      | ok u =>
        obtain ⟨link, hlink⟩ := bearerLink_ok hs id user nonce (now + seconds (max ttl 1 * 3600))
        show (ofExcept (P.bearerLink id user nonce _)).Paths _
        rw [hlink]
        intro l h
        cases h
        exact ⟨id, nonce, _, by simp, hlasts.2, hlink, .inl (by simp)⟩
  · rw [hlife]
    intro link h
    cases h

/-- The successor of a rotation is issued to the principal of its transaction. -/
def Portal.Succeeds (P : Portal) (link : String) (evs : List (Event portalSig)) : Prop :=
  ∃ user, P.Issued user link evs ∧ ∀ id successor owner nonce expires r,
    ⟨.sql (.rotateToken id successor owner nonce expires), r⟩ ∈ evs → owner = user

theorem rotateBearer_yields (P : Portal) (link : String) (ttl : Int) :
    (P.rotateBearer link ttl).Yields P.Succeeds := by
  unfold Portal.rotateBearer
  refine Prog.yields_after (A := Act.Quiet) ?_ (verifyBearer_all P (fun a h => h.quiet) link)
    fun principal => ?_
  · rintro l ⟨a, r⟩ evs hquiet ⟨user, hissued, honly⟩
    refine ⟨user, hissued.more (List.subset_cons_self _ _), fun id successor owner nonce expires r' hmem => ?_⟩
    rcases List.mem_cons.mp hmem with h | h
    · cases h
      exact hquiet.elim
    · exact honly _ _ _ _ _ _ h
  split
  · exact Prog.yields_fail
  next parts hparts =>
    intro id nonce now
    show (Prog.bind (lifetime "hours" 3600 (max ttl 1) now) _).Paths _
    rcases lifetime_eq "hours" 3600 (max ttl 1) now with ⟨hlasts, hlife⟩ | ⟨-, m, hlife⟩
    · rw [hlife]
      intro r
      cases r with
      | error e => exact fun l h => nomatch h
      | ok rotated =>
        cases rotated with
        | false => exact fun l h => nomatch h
        | true =>
          intro r
          cases r with
          | error e => exact fun l h => nomatch h
          | ok u =>
            show (ofExcept (P.bearerLink id principal.userId nonce _)).Paths _
            cases hlink : P.bearerLink id principal.userId nonce (now + seconds (max ttl 1 * 3600)) with
            | error e => exact fun l h => nomatch h
            | ok l =>
              intro l' h
              cases h
              refine ⟨principal.userId, ⟨id, nonce, _, by simp, hlasts.2, hlink, .inr ⟨parts.id, by simp⟩⟩, ?_⟩
              intro id' successor owner nonce' expires r hmem
              simp only [List.mem_cons, Event.mk.injEq, reduceCtorEq, false_and, List.not_mem_nil,
                or_false, false_or, Act.sql.injEq, Stmt.rotateToken.injEq] at hmem
              exact hmem.1.2.2.1
    · rw [hlife]
      exact fun l h => nomatch h

/-- The bearer of an admission is issued to the principal it names. -/
def Portal.Admits (P : Portal) (r : Uuid × String) (evs : List (Event portalSig)) : Prop := P.Issued r.1 r.2 evs

theorem admits_more : Extends P.Admits := fun _ _ _ hsub h => Portal.Issued.more hsub h

theorem mintBearer_admits {event : AuditEvent} :
    ((P.mintBearer user defaultBearerTtlHours).bind fun bearer =>
      (query (.appendAudit event)).bind fun _ => .ret (user, bearer)).Yields P.Admits := by
  refine (mintBearer_yields P user _).bind admits_more fun bearer evs h r => ?_
  cases r with
  | error e => exact fun _ hr => nomatch hr
  | ok u => exact fun _ hr => by cases hr; exact h

theorem refuseLogin_yields {R : Uuid × String → List (Event portalSig) → Prop}
    (hR : Extends R) {owner : Option Uuid}
    {idKey ipKey : String} {detail : Json} :
    (Portal.refuseLogin owner idKey ipKey detail : Verb (Uuid × String)).Yields R := by
  refine Prog.yields_bind_right hR fun _ => Prog.yields_bind_right hR fun _ =>
    Prog.yields_bind_right hR fun _ => ?_
  exact Prog.yields_fail

theorem verifyAndMint_yields {email presented ip event : String} :
    (P.verifyAndMint email presented ip event).Yields P.Admits := by
  unfold Portal.verifyAndMint
  refine Prog.yields_bind_right admits_more fun now => Prog.yields_bind_right admits_more fun _ =>
    Prog.yields_bind_right admits_more fun _ => Prog.yields_bind_right admits_more fun found => ?_
  split
  · exact refuseLogin_yields admits_more
  split
  · exact refuseLogin_yields admits_more
  apply Prog.yields_bind_right admits_more
  intro verdict
  split
  · refine Prog.yields_bind_right admits_more fun _ => Prog.yields_bind_right admits_more fun _ =>
      Prog.yields_bind_right admits_more fun _ => ?_
    exact mintBearer_admits
  · exact refuseLogin_yields admits_more
  · exact Prog.yields_fail
  · exact Prog.yields_bind_right admits_more fun _ => Prog.yields_fail

theorem login_yields {email presented ip : String} : (P.login email presented ip).Yields P.Admits := by
  unfold Portal.login
  dsimp only
  split
  · exact Prog.yields_fail
  · exact verifyAndMint_yields

theorem mintBearer_admits_last :
    ((P.mintBearer user defaultBearerTtlHours).bind fun bearer => .ret (user, bearer)).Yields P.Admits := by
  refine (mintBearer_yields P user _).bind admits_more fun bearer evs h => ?_
  exact fun _ hr => by cases hr; exact h

theorem signup_yields {email presented ip : String} : (P.signup email presented ip).Yields P.Admits := by
  unfold Portal.signup
  dsimp only
  split
  · exact Prog.yields_fail
  apply Prog.yields_bind_right admits_more
  intro is_open
  split
  · exact Prog.yields_bind_right admits_more fun _ => Prog.yields_fail
  apply Prog.yields_bind_right admits_more
  intro found
  split
  · split
    · exact Prog.yields_fail
    · exact verifyAndMint_yields
  unfold Portal.signupFresh
  refine Prog.yields_bind_right admits_more fun _ => Prog.yields_bind_right admits_more fun _ =>
    Prog.yields_bind_right admits_more fun verdict => ?_
  split
  · exact Prog.yields_bind_right admits_more fun id => Prog.yields_bind_right admits_more fun inserted =>
      Prog.yields_bind_right admits_more fun user => Prog.yields_bind_right admits_more fun _ =>
        mintBearer_admits_last
  · exact Prog.yields_bind_right admits_more fun _ => Prog.yields_bind_right admits_more fun _ =>
      Prog.yields_fail
  · exact Prog.yields_fail
  · exact Prog.yields_bind_right admits_more fun _ => Prog.yields_fail

theorem redeem_yields {link email : String} : (P.redeem link email).Yields P.Admits := by
  unfold Portal.redeem
  dsimp only
  split
  · exact Prog.yields_fail
  apply Prog.yields_bind_right admits_more
  intro row
  split
  · exact Prog.yields_fail
  split
  · exact Prog.yields_fail
  apply Prog.yields_bind_right admits_more
  intro now
  split
  · exact Prog.yields_fail
  refine Prog.yields_bind_right admits_more fun user => Prog.yields_bind_right admits_more fun settled => ?_
  split
  · exact Prog.yields_fail
  · exact Prog.yields_bind_right admits_more fun _ => mintBearer_admits_last

end

/-! ## Returned links -/

theorem reply_ends {α : Type} {p : Verb α} {f : α → Reply} :
    (reply p f).Ends fun o => ∀ b, o = .ok b → ∃ a, b = f a := by
  unfold reply
  induction p with
  | ret a => exact fun b h => by cases h; exact ⟨a, rfl⟩
  | fail e => exact fun b h => nomatch h
  | act a k ih => exact fun r => ih r

def Portal.Replies (P : Portal) : Request → Reply → List (Event portalSig) → Prop
  | .mintBearer user _, .link l, evs => P.Issued user l evs
  | .rotateBearer _ _, .link l, evs => P.Succeeds l evs
  | _, .admitted user l, evs => P.Issued user l evs
  | _, _, _ => True

theorem serve_replies (P : Portal) (t : Request) : (P.serve t).Yields (P.Replies t) := by
  have silent : ∀ {α : Type} {p : Verb α} {f : α → Reply}, (∀ a evs, P.Replies t (f a) evs) →
      (reply p f).Yields (P.Replies t) := fun h =>
    Prog.yields_of_ends (reply_ends.mono fun o ho b hb evs => by
      obtain ⟨a, rfl⟩ := ho b hb
      exact h a evs)
  have spoken : ∀ {α : Type} {p : Verb α} {f : α → Reply} {R : α → List (Event portalSig) → Prop}, p.Yields R →
      (∀ a evs, R a evs → P.Replies t (f a) evs) → (reply p f).Yields (P.Replies t) := fun hp h => .map h hp
  cases t with
  | mintBearer user ttl => exact spoken (mintBearer_yields P user ttl) fun l evs h => h
  | rotateBearer link ttl => exact spoken (rotateBearer_yields P link ttl) fun l evs h => h
  | redeem link email => exact spoken redeem_yields fun r evs h => h
  | login email presented ip => exact spoken login_yields fun r evs h => h
  | signup email presented ip => exact spoken signup_yields fun r evs h => h
  | _ => exact silent fun a evs => trivial

inductive Returned (user : Uuid) (link : String) (c : Call portalSig Halt Reply Request) : Prop where
  | minted (ttl : Int) (tag : c.tag = .mintBearer user ttl) (reply : c.outcome = some (.ok (.link link)))
  | admitted (reply : c.outcome = some (.ok (.admitted user link)))
  | rotated (old : String) (ttl : Int) (tag : c.tag = .rotateBearer old ttl)
    (reply : c.outcome = some (.ok (.link link)))
    (id successor : Uuid) (nonce : String) (expires : Instant)
    (rotation : ⟨.sql (.rotateToken id successor user nonce expires), .ok true⟩ ∈ c.past)

theorem replies_admitted {P : Portal} {t : Request} {user : Uuid} {link : String} {evs : List (Event portalSig)}
    (h : P.Replies t (.admitted user link) evs) : P.Issued user link evs := by
  cases t <;> exact h

theorem Returned.issued {P : Portal} {user : Uuid} {link : String} {c : Call portalSig Halt Reply Request}
    (h : Returned user link c) (hreplies : ∀ r, c.outcome = some (.ok r) → P.Replies c.tag r c.past) :
    P.Issued user link c.past := by
  cases h with
  | minted ttl tag reply =>
    have h := hreplies _ reply
    rw [tag] at h
    exact h
  | admitted reply => exact replies_admitted (hreplies _ reply)
  | rotated old ttl tag reply id successor nonce expires rotation =>
    have h := hreplies _ reply
    rw [tag] at h
    obtain ⟨owner, hissued, honly⟩ := h
    cases honly _ _ _ _ _ _ rotation
    exact hissued

/-! ## The verification -/

/-- The bearer is unspent and in time, its principal active, and both are live. -/
structure Usable (t : PortalToken) (u : PortalUser) (now : Instant) : Prop where
  inTime : now ≤ t.tokenExpiresAt
  unspent : t.status = .active
  kept : t.live = true
  active : u.status = .active
  live : u.live = true

section
variable {P : Portal} {link : String} {i : Nat → Env} {w : World} {parts : ParsedCapability}
    {t : PortalToken} {u : PortalUser}

theorem verifyBearer_run (hi : ∀ n, (i n).fault = none) (hs : P.bearerSecret ≠ [])
    (hparse : parseCapability link = some parts)
    (ht : w.db.tokens.get parts.id = some t) (hu : w.db.users.get t.userId = some u)
    (hagree : P.bearerAgrees P.bearerSecret parts
      ⟨t.tokenNonce, t.tokenExpiresAt, t.status, u.id, u.email, u.details.displayName⟩ = true) :
    (Usable t u (i 1).now → ((P.verifyBearer link).run portalMachine i w).1 =
      .ok ⟨u.id, u.email, u.details.displayName⟩) ∧
      (¬Usable t u (i 1).now → ((P.verifyBearer link).run portalMachine i w).1 =
        .error (.err .credentialRefused)) := by
  have hid : u.id = t.userId := (Table.get_eq_some.mp hu).2
  simp only [Portal.verifyBearer, secret_eq hs, hparse, Prog.bind_eq, ofExcept_ok, Prog.bind_ret]
  by_cases hlive : t.live = true ∧ u.live = true
  · have hjoin : (Stmt.bearerById parts.id).answer (i 0) w.db =
        (.ok (some
          ⟨t.tokenNonce, t.tokenExpiresAt, t.status, u.id, u.email, u.details.displayName⟩), w.db) := by
      apply Stmt.answer_of_ok (hi 0)
      simp [Stmt.exec, Option.filter_some, ht, hu, hlive]
    rw [run_query_ok _ _ hjoin]
    dsimp only
    rw [if_neg (by rw [hagree]; decide), run_utcNow]
    by_cases hlate : t.tokenExpiresAt < (from_ 1 i 0).now
    · rw [if_pos hlate]
      exact ⟨fun h => absurd h.inTime (Int.not_le.mpr hlate), fun _ => rfl⟩
    rw [if_neg hlate]
    by_cases hspent : t.status ≠ .active
    · rw [if_pos hspent]
      exact ⟨fun h => absurd h.unspent hspent, fun _ => rfl⟩
    rw [if_neg hspent]
    have hstatus : (Stmt.userStatus u.id).answer (i 2) w.db = (.ok (some u.status), w.db) := by
      apply Stmt.answer_of_ok (hi 2)
      simp [Stmt.exec, Option.filter_some, hid, hu, hlive]
    rw [run_query_ok _ { w with clock := (from_ 1 i 0).now } hstatus]
    dsimp only
    by_cases hactive : u.status ≠ .active
    · rw [if_pos hactive]
      exact ⟨fun h => absurd h.active hactive, fun _ => rfl⟩
    rw [if_neg hactive]
    exact ⟨fun _ => rfl, fun h =>
      absurd ⟨Int.not_lt.mp hlate, not_not.mp hspent, hlive.1, not_not.mp hactive, hlive.2⟩ h⟩
  · have hjoin : (Stmt.bearerById parts.id).answer (i 0) w.db = (.ok none, w.db) := by
      apply Stmt.answer_of_ok (hi 0)
      rw [not_and] at hlive
      by_cases htl : t.live = true
      · simp [Stmt.exec, Option.filter_some, ht, hu, htl, hlive htl]
      · simp [Stmt.exec, Option.filter_some, ht, htl]
    rw [run_query_ok _ _ hjoin]
    exact ⟨fun h => absurd ⟨h.kept, h.live⟩ hlive, fun _ => rfl⟩

theorem Instant.Kept.timestamp {t : Instant} (h : t.Kept) : t.stored.timestamp = t.timestamp := by
  rw [h.1]
  simp only [Instant.timestamp, Int.fdiv_eq_ediv_of_nonneg _ (show (0 : Int) ≤ 1000000000 by decide),
    Int.fdiv_eq_ediv_of_nonneg _ (show (0 : Int) ≤ 1000 by decide)]
  omega

theorem timestamp_lt {t : Int} (h : t ≤ maxUtc) : Instant.timestamp t < 2 ^ 63 := by
  have hmax : t ≤ 8210266876799999999999 := h
  rw [Instant.timestamp, Int.fdiv_eq_ediv_of_nonneg _ (by decide)]
  omega

theorem bearerLink_agrees {id user : Uuid} {bits : BitVec 128} {expires : Instant} (hs : P.bearerSecret ≠ [])
    (hmac : ∀ key msg, (P.hmacSha256 key msg).length = 32)
    (hlink : P.bearerLink id user (nonceOf bits) expires = .ok link)
    (hkept : expires.Kept) (hmax : expires ≤ maxUtc) :
    ∃ parts, parseCapability link = some parts ∧ parts.id = id ∧ ∀ status email name,
      P.bearerAgrees P.bearerSecret parts ⟨nonceOf bits, expires.stored, status, user, email, name⟩ = true := by
  have hstored := hkept.timestamp
  have hhi := timestamp_lt hmax
  have hlo := hkept.2
  generalize expires.stored = stored at *
  rw [Portal.bearerLink, secret_eq hs] at hlink
  cases Except.ok.inj hlink
  refine ⟨_, parseCapability_renderLink id bits hlo hhi (hmac _ _), rfl, fun status email name => ?_⟩
  simp only [Portal.bearerAgrees, Portal.verifyMac, hstored, hexDecode_hexOf, decide_true, Bool.and_self]

end

/-- Each instant the action has the database keep is truncated to microseconds. -/
def Act.Truncates : Act → Prop
  | .sql (.insertToken _ _ _ expires) | .sql (.rotateToken _ _ _ _ expires) => expires.Kept
  | _ => True

instance (t : Instant) : Decidable t.Kept := inferInstanceAs (Decidable (_ ∧ _))

instance (a : Act) : Decidable a.Truncates := by
  unfold Act.Truncates
  split <;> exact inferInstance

/-- **Lifetime of a bearer.** In every interleaving a link that was returned for
a principal verifies, to that principal and its present address, exactly while
it is usable, and is refused otherwise. -/
theorem bearer_lifetime (P : Portal) (hsecret : P.bearerSecret ≠ [])
    (hmac : ∀ key msg, (P.hmacSha256 key msg).length = 32)
    (w : World) (ms : List (Move portalMachine Request)) (j : Nat)
    (c : Call portalSig Halt Reply Request) (user : Uuid)
    (link : String)
    (hc : ((⟨w, []⟩ : Pool portalMachine Halt Reply Request).play P.serve ms).calls[j]? = some c)
    (hreturned : Returned user link c) (htruncates : ∀ ev ∈ c.past, ev.act.Truncates) (i : Nat → Env)
    (hi : ∀ n, (i n).fault = none) :
    let world := ((⟨w, []⟩ : Pool portalMachine Halt Reply Request).play P.serve ms).world
    let o := ((P.verifyBearer link).run portalMachine i world).1
    ∃ parts t u, parseCapability link = some parts ∧ world.db.tokens.get parts.id = some t ∧ t.userId = user ∧
      world.db.users.get user = some u ∧ ((∃ name, o = .ok ⟨user, u.email, name⟩) ↔ Usable t u (i 1).now) ∧
      (¬Usable t u (i 1).now → o = .error (.err .credentialRefused)) := by
  intro world o
  have hissued : P.Issued user link c.past := hreturned.issued fun r hr =>
    Pool.play_paths (M := portalMachine) P.serve (serve_replies P) ⟨w, []⟩ rfl ms j c _ hc hr r rfl
  have hsaid : ∀ ev ∈ c.past, Says ev world := Pool.play_past (M := portalMachine) P.serve says_given
    (fun ev a i w h => h.later ev (grows_exec a i w)) ⟨w, []⟩ rfl ms j c hc
  obtain ⟨id, nonce, expires, hnonce, hmax, hlink, hrow⟩ := hissued
  obtain ⟨bits, rfl⟩ : ∃ bits, nonce = nonceOf bits := hsaid _ hnonce
  have hhas : world.db.HasBearer id user (nonceOf bits) expires ∧ expires.Kept := by
    rcases hrow with h | ⟨old, h⟩
    · exact ⟨hsaid _ h rfl, htruncates _ h⟩
    · exact ⟨hsaid _ h rfl, htruncates _ h⟩
  obtain ⟨⟨t, ht, hu, hn, hx, howner⟩, hkept⟩ := hhas
  obtain ⟨u, hget⟩ := Option.isSome_iff_exists.mp howner
  have hid : u.id = user := (Table.get_eq_some.mp hget).2
  obtain ⟨parts, hparse, rfl, hagrees⟩ := bearerLink_agrees hsecret hmac hlink hkept hmax
  have hagree := hagrees t.status u.email u.details.displayName
  rw [← hn, ← hx, ← hid] at hagree
  obtain ⟨hok, hrefused⟩ := verifyBearer_run hi hsecret hparse ht (hu ▸ hget) hagree
  refine ⟨parts, t, u, hparse, ht, hu, hget, ⟨?_, fun h => ⟨_, hid ▸ hok h⟩⟩, hrefused⟩
  rintro ⟨name, ho⟩
  by_contra hunusable
  cases ho.symm.trans (hrefused hunusable)

namespace Probe

def signer : Portal :=
  { portal with hmacSha256 := fun key msg =>
      if (portal.hmacSha256 key msg).length = 32 then portal.hmacSha256 key msg else List.replicate 32 0 }

def minting : List (Move portalMachine Request) :=
  .start (.mintBearer (uuid 2) 24) :: List.replicate 5 (.step 0 { env with uuid := uuid 3 })

def minted : Pool portalMachine Halt Reply Request :=
  (⟨world enrolled, []⟩ : Pool portalMachine Halt Reply Request).play signer.serve minting

def linkOf (c : Call portalSig Halt Reply Request) : Option String :=
  match c.outcome with
  | some (.ok (.link l)) => some l
  | _ => none

theorem linkOf_eq_some {c : Call portalSig Halt Reply Request} {l : String} (h : linkOf c = some l) :
    c.outcome = some (.ok (.link l)) := by
  unfold linkOf at h
  split at h
  next ho => cases h; exact ho
  next => cases h

end Probe

theorem bearer_lifetime_probe :
    ∃ t u, Probe.minted.world.db.tokens.get (Probe.uuid 3) = some t ∧
      Probe.minted.world.db.users.get (Probe.uuid 2) = some u ∧
      ((∃ name, ((Probe.signer.verifyBearer Probe.bearerLink).run portalMachine (fun _ => Probe.env)
        Probe.minted.world).1 = .ok ⟨Probe.uuid 2, u.email, name⟩) ↔ Usable t u Probe.now) := by
  obtain ⟨c, hc, htag, -⟩ :=
    Pool.play_call (M := portalMachine) Probe.signer.serve (j := 0) (P := ⟨Probe.world Probe.enrolled,
    [⟨.mintBearer (Probe.uuid 2) 24, [], Probe.signer.serve (.mintBearer (Probe.uuid 2) 24)⟩]⟩) rfl
    (List.replicate 5 (.step 0 { Probe.env with uuid := Probe.uuid 3 }))
  have hrun : Probe.minted.calls[0]?.bind Probe.linkOf = some Probe.bearerLink ∧
      (Probe.minted.calls[0]?.map fun c => decide (∀ ev ∈ c.past, ev.act.Truncates)) = some true := by
        decide +kernel
  have hcall : Probe.minted.calls[0]? = some c := hc
  rw [hcall, Option.bind_some, Option.map_some] at hrun
  obtain ⟨hlink, htruncates⟩ := hrun
  obtain ⟨parts, t, u, hparse, ht, -, hu, hiff, -⟩ :=
    bearer_lifetime Probe.signer (by decide) (fun key msg => by
    unfold Probe.signer
    dsimp only
    split
    · assumption
    · rfl) (Probe.world Probe.enrolled) Probe.minting 0 c (Probe.uuid 2) Probe.bearerLink hcall
    (.minted 24 htag (Probe.linkOf_eq_some hlink)) (of_decide_eq_true (Option.some.inj htruncates))
    (fun _ => Probe.env)
    fun _ => rfl
  have hid : parts = ⟨Probe.uuid 3, Probe.nonce, 1700086400, Probe.bearerMac⟩ :=
    Option.some.inj (hparse.symm.trans Probe.parse_bearerLink)
  rw [hid] at ht
  exact ⟨t, u, ht, hu, hiff⟩

end BackbonePortal
