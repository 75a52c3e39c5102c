import BackbonePortal.Attempts
import BackbonePortal.Histories
import BackbonePortal.Mediation
import BackbonePortal.Tallies
import Mathlib.Algebra.Order.BigOperators.Group.List
import Mathlib.Algebra.Order.Group.Nat

/-!
# Lockouts are earned

The attempt book is the replay of what the calls wrote in it. A call counts a
failure once, on its own keys, after it was told why it fails; it forgets the
failures of its keys after the verifier said yes. So a locked key was named by
five calls that failed.
-/

namespace BackbonePortal

open Proc

/-! ## What a call may write in the book -/

/-- The counters of the call: of the identity it names, of the address it comes from. -/
def Portal.keys (P : Portal) : PortalCall → List String
  | .request (.login email _ ip) | .request (.signup email _ ip) =>
    [P.identityKey (P.normalizeEmail email), ipKey ip]
  | .request (.route request) => request.keys P
  | _ => []

/-- Why an invitation link does not admit the address. -/
inductive Portal.Unredeemable (P : Portal) (link presenting : String) (past : Past) : Prop where
  | unread (unread : parseCapability link = none)
  | unknown (parts : ParsedCapability) (read : parseCapability link = some parts)
    (row : ⟨.sql (.inviteById parts.id), .ok none⟩ ∈ past)
  | disagrees (parts : ParsedCapability) (found : InviteJoin) (read : parseCapability link = some parts)
    (row : ⟨.sql (.inviteById parts.id), .ok (some found)⟩ ∈ past)
    (no : P.inviteAgrees parts (P.normalizeEmail presenting) found = false)
  | expired (parts : ParsedCapability) (found : InviteJoin) (now : Instant)
    (read : parseCapability link = some parts)
    (row : ⟨.sql (.inviteById parts.id), .ok (some found)⟩ ∈ past) (clock : ⟨.now, now⟩ ∈ past)
    (late : found.expiresAt < now)
  | taken (parts : ParsedCapability) (user : Uuid) (email : String) (read : parseCapability link = some parts)
    (lost : ⟨.sql (.redeemInvite parts.id user email), .ok false⟩ ∈ past)

/-- Why a bearer link is not rotated. -/
inductive Portal.Unrotatable (P : Portal) (link : String) (past : Past) : Prop where
  | unread (unread : parseCapability link = none)
  | unknown (parts : ParsedCapability) (read : parseCapability link = some parts)
    (row : ⟨.sql (.bearerById parts.id), .ok none⟩ ∈ past)
  | disagrees (parts : ParsedCapability) (found : BearerJoin) (read : parseCapability link = some parts)
    (row : ⟨.sql (.bearerById parts.id), .ok (some found)⟩ ∈ past)
    (no : P.bearerAgrees P.bearerSecret parts found = false)
  | expired (parts : ParsedCapability) (found : BearerJoin) (now : Instant)
    (read : parseCapability link = some parts)
    (row : ⟨.sql (.bearerById parts.id), .ok (some found)⟩ ∈ past) (clock : ⟨.now, now⟩ ∈ past)
    (late : found.expiresAt < now)
  | inactive (parts : ParsedCapability) (found : BearerJoin) (read : parseCapability link = some parts)
    (row : ⟨.sql (.bearerById parts.id), .ok (some found)⟩ ∈ past) (inactive : found.status ≠ .active)
  | barred (parts : ParsedCapability) (found : BearerJoin) (status : Option PortalUserStatus)
    (read : parseCapability link = some parts) (row : ⟨.sql (.bearerById parts.id), .ok (some found)⟩ ∈ past)
    (answer : ⟨.sql (.userStatus found.userId), .ok status⟩ ∈ past) (barred : status ≠ some .active)
  | taken (parts : ParsedCapability) (successor user : Uuid) (nonce : String) (expires : Instant)
    (read : parseCapability link = some parts)
    (lost : ⟨.sql (.rotateToken parts.id successor user nonce expires), .ok false⟩ ∈ past)

/-- Why the call fails. -/
inductive Portal.Failed (P : Portal) (t : PortalCall) (past : Past) : Prop where
  | unknown (email presented : String) (asked : t.password = some (email, presented))
    (row : ⟨.sql (.liveUserByEmail (P.normalizeEmail email)), .ok none⟩ ∈ past)
  | barred (email presented : String) (user : Uuid) (status : PortalUserStatus)
    (asked : t.password = some (email, presented))
    (row : ⟨.sql (.liveUserByEmail (P.normalizeEmail email)), .ok (some (user, status))⟩ ∈ past)
    (barred : status ≠ .active)
  | refused (email presented : String) (asked : t.password = some (email, presented))
    (no : ⟨.verify (P.normalizeEmail email) presented, some (.ok false)⟩ ∈ past)
  | unredeemable (link presenting : String) (asked : t.invitation = some (link, presenting))
    (no : P.Unredeemable link presenting past)
  | unrotatable (link : String) (asked : t.rotated = some link) (no : P.Unrotatable link past)

/-- A failure is counted once, after it was told; only an accepted password resets. -/
def Portal.Counts (P : Portal) (t : PortalCall) (past : Past) : Act → Prop
  | .registerFailure key now => key ∈ P.keys t ∧ ⟨.now, now⟩ ∈ past ∧ P.Failed t past ∧
      ∀ before, ⟨.registerFailure key before, ()⟩ ∉ past
  | .reset key => key ∈ P.keys t ∧ ∃ email presented, t.password = some (email, presented) ∧
      Accepted past (P.normalizeEmail email)
  | _ => True

section
variable {P : Portal} {t : PortalCall} {past past' : Past}

theorem Portal.Unredeemable.later {link presenting : String} (h : P.Unredeemable link presenting past)
    (hp : past ⊆ past') : P.Unredeemable link presenting past' := by
  cases h with
  | unread unread => exact .unread unread
  | unknown parts read row => exact .unknown parts read (hp row)
  | disagrees parts found read row no => exact .disagrees parts found read (hp row) no
  | expired parts found now read row clock late => exact .expired parts found now read (hp row) (hp clock) late
  | taken parts user email read lost => exact .taken parts user email read (hp lost)

theorem Portal.Unrotatable.later {link : String} (h : P.Unrotatable link past) (hp : past ⊆ past') :
    P.Unrotatable link past' := by
  cases h with
  | unread unread => exact .unread unread
  | unknown parts read row => exact .unknown parts read (hp row)
  | disagrees parts found read row no => exact .disagrees parts found read (hp row) no
  | expired parts found now read row clock late => exact .expired parts found now read (hp row) (hp clock) late
  | inactive parts found read row inactive => exact .inactive parts found read (hp row) inactive
  | barred parts found status read row answer barred =>
    exact .barred parts found status read (hp row) (hp answer) barred
  | taken parts successor user nonce expires read lost =>
    exact .taken parts successor user nonce expires read (hp lost)

theorem Portal.Failed.later (h : P.Failed t past) (hp : past ⊆ past') : P.Failed t past' := by
  cases h with
  | unknown email presented asked row => exact .unknown email presented asked (hp row)
  | barred email presented user status asked row barred =>
    exact .barred email presented user status asked (hp row) barred
  | refused email presented asked no => exact .refused email presented asked (hp no)
  | unredeemable link presenting asked no => exact .unredeemable link presenting asked (no.later hp)
  | unrotatable link asked no => exact .unrotatable link asked (no.later hp)

theorem bookless_counts (past : Past) (a : Act) (h : a.Bookless) : P.Counts t past a := by
  cases a with
  | registerFailure key now => exact h.elim
  | reset key => exact h.elim
  | _ => trivial

end

/-! ## Why a link is refused -/

section
variable {α β : Type} {E : Past → Prop}

/-- Every path to the uniform refusal shows `E`. -/
abbrev Grounded (E : Past → Prop) (p : Verb α) : Prop := p.Explains (.err .credentialRefused) E

theorem grounded_query {q : Stmt} {f : q.Res → Verb α}
    (hf : ∀ r, Grounded (fun evs => E (⟨.sql q, .ok r⟩ :: evs)) (f r)) : Grounded E ((query q).bind f) := by
  intro r
  cases r with
  | ok r => exact hf r
  | error e =>
    intro h
    cases h

theorem grounded_unless {c : Prop} [Decidable c] {p : Verb α} (hc : c → E []) (hp : ¬c → Grounded E p) :
    Grounded E (if c then refuse .credentialRefused else p) := by
  split
  next h => exact fun _ => hc h
  next h => exact hp h

theorem mintBearer_grounded {P : Portal} (user : Uuid) (ttl : Int) {f : String → Verb α}
    (hf : ∀ link, ∃ a, f link = .ret a) : Grounded E ((P.mintBearer user ttl).bind f) := by
  refine Prog.explains_of_ends (.bind (mintBearer_ends P user ttl) (fun link _ => ?_) fun e he h => ?_)
  · obtain ⟨a, ha⟩ := hf link
    rw [ha]
    intro h
    cases h
  · rcases he with ⟨link, he⟩ | ⟨m, he⟩ | ⟨e', he, rfl | ⟨s, rfl⟩⟩
    all_goals cases h; cases he

end

section
variable {P : Portal}

theorem redeem_grounded (link presenting : String) :
    Grounded (P.Unredeemable link presenting) (P.redeem link presenting) := by
  unfold Portal.redeem
  dsimp only
  split
  next hread => exact fun _ => .unread hread
  next parts hread =>
    refine grounded_query fun found => ?_
    cases found with
    | none => exact fun _ => .unknown parts hread (by simp)
    | some row =>
      refine grounded_unless (fun hno => .disagrees parts row hread (by simp) hno) fun _ now => ?_
      refine grounded_unless (fun hlate => .expired parts row now hread (by simp) (by simp) hlate) fun _ user =>
        grounded_query fun settled => ?_
      cases settled with
      | false => exact fun _ => .taken parts user row.recipientEmail hread (by simp)
      | true => exact grounded_query fun _ => mintBearer_grounded user _ fun bearer => ⟨_, rfl⟩

theorem verifyBearer_grounded (link : String) : Grounded (P.Unrotatable link) (P.verifyBearer link) := by
  unfold Portal.verifyBearer
  by_cases hs : P.bearerSecret = []
  · rw [Portal.secret, if_pos hs]
    intro h
    cases h
  rw [secret_eq hs, ofExcept_ok, Prog.bind_eq, Prog.bind_ret]
  split
  next hread => exact fun _ => .unread hread
  next parts hread =>
    refine grounded_query fun found => ?_
    cases found with
    | none => exact fun _ => .unknown parts hread (by simp)
    | some row =>
      refine grounded_unless (fun hno => .disagrees parts row hread (by simp) hno) fun _ now => ?_
      refine grounded_unless (fun hlate => .expired parts row now hread (by simp) (by simp) hlate) fun _ => ?_
      refine grounded_unless (fun hoff => .inactive parts row hread (by simp) hoff) fun _ => ?_
      refine grounded_query fun status => ?_
      cases status with
      | none => exact fun _ => .barred parts row none hread (by simp) (by simp) (by simp)
      | some status =>
        refine grounded_unless (fun hoff => ?_) fun _ touched => ?_
        · exact .barred parts row (some status) hread (by simp) (by simp) fun h => hoff (Option.some.inj h)
        · intro h
          cases h

theorem bearerLink_grounded {E : Past → Prop} (id user : Uuid) (nonce : String) (expires : Instant) :
    Grounded E (ofExcept (P.bearerLink id user nonce expires)) := by
  unfold Portal.bearerLink
  by_cases hs : P.bearerSecret = []
  · rw [Portal.secret, if_pos hs]
    intro h
    cases h
  · rw [Portal.secret, if_neg hs]
    intro h
    cases h

theorem rotateBearer_grounded (link : String) (ttl : Int) :
    Grounded (P.Unrotatable link) (P.rotateBearer link ttl) := by
  refine Prog.Explains.bind (fun evs evs' h hE => hE.later h) (verifyBearer_grounded link) fun principal => ?_
  split
  next hread => exact fun _ => .unread hread
  next parts hread =>
    intro id nonce now
    rcases lifetime_eq "hours" 3600 (max ttl 1) now with ⟨-, hlife⟩ | ⟨-, m, hlife⟩
    · show Grounded _ ((lifetime "hours" 3600 (max ttl 1) now).bind _)
      rw [hlife, Prog.bind_ret]
      refine grounded_query fun rotated => ?_
      cases rotated with
      | false =>
        intro _
        exact .taken parts id principal.userId nonce (now + seconds (max ttl 1 * 3600)) hread (by simp)
      | true => exact grounded_query fun _ => bearerLink_grounded id principal.userId nonce _
    · show Grounded _ ((lifetime "hours" 3600 (max ttl 1) now).bind _)
      rw [hlife]
      intro h
      cases h

end

/-! ## The rules -/

/-- No path of the verb writes in the book what the call may not. -/
abbrev Counting {α : Type} (P : Portal) (t : PortalCall) (past : Past) (p : Verb α) : Prop :=
  p.Heeds (P.Counts t) past

/-- Nothing was written in the book yet. -/
def Unbooked (past : Past) : Prop := ∀ ev ∈ past, ev.act.Bookless

section
variable {P : Portal} {t : PortalCall} {past : Past} {α β : Type}

theorem Unbooked.snoc (h : Unbooked past) (ev : Event portalSig) (hev : ev.act.Bookless) :
    Unbooked (past ++ [ev]) := by
  intro x hx
  rcases List.mem_append.mp hx with hx | hx
  · exact h x hx
  · cases List.mem_singleton.mp hx
    exact hev

theorem counting_bookless {p : Verb α} (hp : p.All Act.Bookless) : Counting P t past p :=
  Prog.heeds_of_all bookless_counts hp past

/-- What was told since is known, and nothing was written. -/
theorem counting_after {p : Verb α} {f : α → Verb β} (hp : p.All Act.Bookless) (hpast : Unbooked past)
    (hf : ∀ a past', past ⊆ past' → Unbooked past' → Counting P t past' (f a)) :
    Counting P t past (p.bind f) := by
  refine Prog.Heeds.bind_yields (R := fun _ evs => Unbooked evs) (counting_bookless hp) ?_ fun a evs hevs => ?_
  · exact ((Prog.paths_of_forall (fun _ _ => trivial) p).with_all hp).mono fun evs o h a _ => h.1
  · refine hf a _ (List.subset_append_left _ _) fun ev hev => ?_
    exact (List.mem_append.mp hev).elim (hpast ev) (hevs ev)

theorem counting_query {q : Stmt} {f : q.Res → Verb α} (hpast : Unbooked past)
    (hok : ∀ r, Unbooked (past ++ [⟨.sql q, .ok r⟩]) → Counting P t (past ++ [⟨.sql q, .ok r⟩]) (f r)) :
    Counting P t past ((query q).bind f) :=
  heeds_query trivial fun r => hok r (hpast.snoc _ trivial)

theorem counting_register {key : String} {f : Unit → Verb α} (hkey : key ∈ P.keys t) (hfailed : P.Failed t past)
    (hfirst : ∀ before, ⟨.registerFailure key before, ()⟩ ∉ past)
    (hf : ∀ now, Counting P t (past ++ [⟨.now, now⟩, ⟨.registerFailure key now, ()⟩]) (f ())) :
    Counting P t past ((registerNow key).bind f) := by
  have hlater := fun now => hfailed.later (List.subset_append_left past [⟨.now, now⟩])
  refine ⟨trivial, fun now => ⟨⟨hkey, List.mem_concat_self, hlater now, ?_⟩, ?_⟩⟩
  · intro before hmem
    rcases List.mem_append.mp hmem with hmem | hmem
    · exact hfirst before hmem
    · cases List.mem_singleton.mp hmem
  · rintro ⟨⟩
    simpa using hf now

/-- A failure counted on both keys. -/
theorem counting_both {key other : String} {f : Unit → Verb α} (hne : key ≠ other) (hkey : key ∈ P.keys t)
    (hother : other ∈ P.keys t) (hpast : Unbooked past) (hfailed : P.Failed t past)
    (hf : (f ()).All Act.Bookless) :
    Counting P t past ((registerNow key).bind fun _ => (registerNow other).bind f) := by
  refine counting_register hkey hfailed (fun before hmem => hpast _ hmem) fun now => ?_
  refine counting_register hother (hfailed.later (List.subset_append_left _ _)) (fun before hmem => ?_)
    fun later => counting_bookless hf
  rcases List.mem_append.mp hmem with hmem | hmem
  · exact hpast _ hmem
  · simp only [List.mem_cons, List.not_mem_nil, or_false] at hmem
    rcases hmem with h | h
    · cases h
    · cases h
      exact hne rfl

theorem counting_answered {p : Verb α} {ok : α → Response} {err : PortalError → Verb Response} {E : Past → Prop}
    (hp : p.All Act.Bookless) (hE : Grounded E p) (hpast : Unbooked past)
    (herr : ∀ e evs, Unbooked (past ++ evs) → (e = .credentialRefused → E evs) →
      Counting P t (past ++ evs) (err e)) : Counting P t past (answered p ok err) := by
  refine Prog.Heeds.bind_yields (counting_bookless hp.attempt) (Prog.Paths.attempt (hE.with_all hp))
    fun r evs hr => ?_
  have hevs : Unbooked (past ++ evs) := fun ev hev => (List.mem_append.mp hev).elim (hpast ev) (hr.1 ev)
  cases r with
  | ok a => trivial
  | error h =>
    cases h with
    | err e => exact herr e evs hevs fun he => hr.2 (by rw [he])
    | event name message => trivial
    | panicked message => trivial

end

/-! ## Verbs that leave the book alone -/

section
variable {P : Portal} {user : Uuid}

theorem audit_bookless {action actor : String} {user invite token : Option Uuid} {detail : Json} :
    (audit action user invite token actor detail).All Act.Bookless := all_query trivial

theorem mintBearer_bookless (ttl : Int) : (P.mintBearer user ttl).All Act.Bookless :=
  mintBearer_all P (fun _ h => h.bookless) user ttl

theorem verifyBearer_bookless (link : String) : (P.verifyBearer link).All Act.Bookless :=
  verifyBearer_all P (fun a h => by
    cases a with
    | registerFailure key now => exact h.elim
    | reset key => exact h.elim
    | _ => trivial) link

theorem checkNow_bookless (key : String) : (checkNow key).All Act.Bookless :=
  ⟨trivial, fun _ => all_checkKey trivial⟩

theorem redeem_bookless (link presenting : String) : (P.redeem link presenting).All Act.Bookless := by
  unfold Portal.redeem
  dsimp only
  split
  · trivial
  refine .bind (all_query trivial) fun found => ?_
  split
  · trivial
  split
  · trivial
  refine .bind (all_step trivial) fun now => ?_
  split
  · trivial
  refine .bind (all_step trivial) fun user => .bind (all_query trivial) fun settled => ?_
  cases settled with
  | false => trivial
  | true => exact .bind audit_bookless fun _ => .bind (mintBearer_bookless _) fun _ => trivial

theorem rotateBearer_bookless (link : String) (ttl : Int) : (P.rotateBearer link ttl).All Act.Bookless := by
  refine .bind (verifyBearer_bookless link) fun principal => ?_
  split
  · trivial
  refine .bind (all_step trivial) fun id => .bind (all_step trivial) fun nonce =>
    .bind (all_step trivial) fun now => .bind all_lifetime fun expires =>
    .bind (all_query trivial) fun rotated => ?_
  cases rotated with
  | false => trivial
  | true => exact .bind audit_bookless fun _ => all_ofExcept _

theorem mintInvite_bookless (email : String) (grantedBy : Option Uuid) (ttl : Int) :
    (P.mintInvite email grantedBy ttl).All Act.Bookless := by
  unfold Portal.mintInvite
  dsimp only
  split
  · trivial
  exact .bind (all_step trivial) fun _ => .bind (all_step trivial) fun _ => .bind (all_step trivial) fun _ =>
    .bind all_lifetime fun _ => .bind (all_query trivial) fun _ => .bind audit_bookless fun _ => all_ofExcept _

theorem revokeAllBearers_bookless (reason actor : String) :
    (revokeAllBearers user reason actor).All Act.Bookless := by
  refine .bind (all_query trivial) fun n => ?_
  split
  · exact .bind audit_bookless fun _ => trivial
  · trivial

theorem revokeAccess_bookless (reason actor : String) :
    (revokeAccess user reason actor).All Act.Bookless := by
  refine .bind (all_query trivial) fun revoked => ?_
  split
  · trivial
  · exact .bind (revokeAllBearers_bookless reason actor) fun _ => .bind (all_query trivial) fun _ => trivial

theorem handle_bookless (env : Envelope) : (P.handle env).All Act.Bookless := by
  unfold Portal.handle
  split
  · unfold Portal.onCreated
    split
    · trivial
    split
    · trivial
    refine .bind (busQuery_all P trivial) fun stamped => ?_
    split <;> exact busQuery_all P trivial
  split
  · unfold Portal.onUserGone
    split
    · trivial
    split
    · trivial
    refine .bind (busQuery_all P trivial) fun linked => ?_
    split
    · trivial
    refine .bind (revokeAccess_bookless _ _).mapErr fun flipped => ?_
    split
    · trivial
    · exact busQuery_all P trivial
  · trivial

theorem view_bookless (user : Uuid) : (view user).All Act.Bookless := by
  refine .bind (all_query trivial) fun found => ?_
  split <;> trivial

theorem updateMyDetails_bookless (principal : PortalPrincipal) (patch : PortalDetailPatch) :
    (updateMyDetails principal patch).All Act.Bookless := by
  unfold updateMyDetails
  split
  · trivial
  refine .bind (all_ofExcept _) fun _ => .bind (all_query trivial) fun n => ?_
  split
  · trivial
  · exact view_bookless _

theorem authenticated_bookless (authorization : Option String) {handler : PortalPrincipal → Verb Response}
    (h : ∀ p, (handler p).All Act.Bookless) : (P.authenticated authorization handler).All Act.Bookless := by
  refine .bind ?_ fun o => ?_
  · unfold Portal.bearerPrincipal
    split
    · trivial
    · refine .bind (verifyBearer_bookless _).attempt fun o => ?_
      split <;> trivial
  · split
    · exact h _
    · trivial

theorem customer_bookless (call : CustomerCall) : (call.verb P).All Act.Bookless := by
  cases call with
  | surface principal call =>
    cases call with
    | myDetails => exact .bind (view_bookless _) fun _ => trivial
    | updateMyDetails patch => exact .bind (updateMyDetails_bookless _ _) fun _ => trivial
    | myAccessHistory limit => exact .bind (all_query trivial) fun _ => trivial
  | me authorization =>
    refine .bind (authenticated_bookless _ fun p => ?_) fun _ => trivial
    exact all_answered (view_bookless _) fun _ => trivial
  | updateMe authorization body =>
    refine .bind (extract_all fun b => authenticated_bookless _ fun p => ?_) fun _ => trivial
    split
    · trivial
    · exact all_answered (updateMyDetails_bookless _ _) fun _ => trivial
  | accessHistory authorization =>
    refine .bind (authenticated_bookless _ fun p => ?_) fun _ => trivial
    exact all_answered (all_query trivial) fun _ => trivial

end

/-! ## Attempts -/

section
variable {P : Portal} {t : PortalCall} {past : Past} {α : Type}

theorem refuseLogin_counts {email ip : String} {user : Option Uuid} {detail : Json}
    (hkeys : P.keys t = [P.identityKey email, ipKey ip]) (hpast : Unbooked past) (hfailed : P.Failed t past) :
    Counting P t past (Portal.refuseLogin user (P.identityKey email) (ipKey ip) detail : Verb α) :=
  counting_both (identityKey_ne_ipKey P email ip) (by rw [hkeys]; simp) (by rw [hkeys]; simp) hpast hfailed
    (.bind audit_bookless fun _ => trivial)

theorem verifyAndMint_counts {raw presented ip : String} (event : String)
    (hkeys : P.keys t = [P.identityKey (P.normalizeEmail raw), ipKey ip])
    (ht : t.password = some (raw, presented)) (hpast : Unbooked past) :
    Counting P t past (P.verifyAndMint (P.normalizeEmail raw) presented ip event) := by
  refine counting_after (all_step trivial) hpast fun now past₁ _ hpast₁ =>
    counting_after (all_checkKey trivial) hpast₁ fun _ past₂ _ hpast₂ =>
    counting_after (all_checkKey trivial) hpast₂ fun _ past₃ _ hpast₃ =>
    counting_query hpast₃ fun found hfound => ?_
  split
  · exact refuseLogin_counts hkeys hfound (.unknown raw presented ht (by simp))
  next user status =>
    split
    next hbarred =>
      exact refuseLogin_counts hkeys hfound (.barred raw presented user status ht (by simp) hbarred)
    refine heeds_step trivial fun verdict => ?_
    have hverdict := hfound.snoc ⟨.verify (P.normalizeEmail raw) presented, verdict⟩ trivial
    split
    · refine heeds_step ⟨by rw [hkeys]; simp, raw, presented, ht, accepted_of_yes ..⟩ fun _ =>
        heeds_step ⟨by rw [hkeys]; simp, raw, presented, ht, ?_⟩ fun _ => ?_
      · exact (accepted_of_yes ..).later (List.subset_append_left _ _)
      exact counting_bookless (.bind (all_step trivial) fun _ => .bind (mintBearer_bookless _) fun _ =>
        .bind audit_bookless fun _ => trivial)
    · exact refuseLogin_counts hkeys hverdict (.refused raw presented ht (by simp))
    · trivial
    · exact counting_bookless (.bind audit_bookless fun _ => trivial)

theorem login_counts {raw presented ip : String}
    (hkeys : P.keys t = [P.identityKey (P.normalizeEmail raw), ipKey ip])
    (ht : t.password = some (raw, presented)) : Counting P t [] (P.login raw presented ip) := by
  unfold Portal.login
  dsimp only
  split
  · trivial
  · exact verifyAndMint_counts _ hkeys ht (List.forall_mem_nil _)

theorem signup_counts {raw presented ip : String}
    (hkeys : P.keys t = [P.identityKey (P.normalizeEmail raw), ipKey ip])
    (ht : t.password = some (raw, presented)) : Counting P t [] (P.signup raw presented ip) := by
  unfold Portal.signup
  dsimp only
  split
  · trivial
  refine counting_after ⟨trivial, fun r => by cases r <;> trivial⟩ (List.forall_mem_nil _)
    fun allowed past _ hpast => ?_
  cases allowed with
  | false => exact counting_bookless (.bind audit_bookless fun _ => trivial)
  | true =>
    refine counting_query hpast fun found hfound => ?_
    split
    · split
      · trivial
      · exact verifyAndMint_counts _ hkeys ht hfound
    · refine counting_after (checkNow_bookless _) hfound fun _ past₁ _ hpast₁ =>
        counting_after (checkNow_bookless _) hpast₁ fun _ past₂ _ hpast₂ => heeds_step trivial fun verdict => ?_
      have hverdict := hpast₂.snoc ⟨.verify (P.normalizeEmail raw) presented, verdict⟩ trivial
      split
      · exact counting_bookless (createPrincipal_bookless _)
      · exact counting_both (identityKey_ne_ipKey P _ ip) (by rw [hkeys]; simp) (by rw [hkeys]; simp) hverdict
          (.refused raw presented ht (by simp)) trivial
      · trivial
      · exact counting_bookless (.bind audit_bookless fun _ => trivial)

theorem route_counts (request : RouteRequest) :
    Counting P (.request (.route request)) [] (P.route request) := by
  cases request with
  | redeemInvite headers body =>
    refine heeds_extract fun b hb => ?_
    subst hb
    refine counting_answered (redeem_bookless _ _) (redeem_grounded b.link b.email) (List.forall_mem_nil _)
      fun e evs hevs hE => ?_
    cases e with
    | credentialRefused =>
      refine counting_both (identityKey_ne_ipKey P b.email _) List.mem_cons_self (.tail _ List.mem_cons_self)
        hevs ?_ trivial
      exact .unredeemable b.link b.email rfl (hE rfl)
    | _ => trivial
  | login headers body =>
    refine heeds_extract fun b hb => heeds_answered (login_counts ?_ ?_) fun _ _ => trivial
    · rw [hb]
      rfl
    · rw [hb]
      rfl
  | signup headers body =>
    refine heeds_extract fun b hb => heeds_answered (signup_counts ?_ ?_) fun _ _ => trivial
    · rw [hb]
      rfl
    · rw [hb]
      rfl
  | rotate headers body =>
    refine heeds_extract fun b hb => ?_
    subst hb
    refine counting_after (checkNow_bookless _).attempt (List.forall_mem_nil _) fun o past _ hpast => ?_
    split
    · trivial
    · trivial
    · refine counting_answered (rotateBearer_bookless _ _) (rotateBearer_grounded b.token _) hpast
        fun e evs hevs hE => ?_
      cases e with
      | credentialRefused =>
        refine counting_register List.mem_cons_self ?_ (fun before hmem => hevs _ hmem) fun _ => trivial
        exact .unrotatable b.token rfl ((hE rfl).later (List.subset_append_right _ _))
      | _ => trivial

theorem serve_counts (request : Request) : Counting P (.request request) [] (P.serve request) := by
  cases request with
  | login email presented ip => exact heeds_reply (login_counts rfl rfl)
  | signup email presented ip => exact heeds_reply (signup_counts rfl rfl)
  | route request => exact heeds_reply (route_counts request)
  | mintBearer user ttl => exact counting_bookless (.bind (mintBearer_bookless ttl) fun _ => trivial)
  | verifyBearer link => exact counting_bookless (.bind (verifyBearer_bookless link) fun _ => trivial)
  | rotateBearer link ttl => exact counting_bookless (.bind (rotateBearer_bookless link ttl) fun _ => trivial)
  | revokeBearer token reason actor =>
    refine counting_bookless (.bind (.bind (all_query trivial) fun revoked => ?_) fun _ => trivial)
    split
    · exact audit_bookless
    · trivial
  | revokeAllBearers user reason actor =>
    exact counting_bookless (.bind (revokeAllBearers_bookless reason actor) fun _ => trivial)
  | mintInvite email grantedBy ttl =>
    exact counting_bookless (.bind (mintInvite_bookless email grantedBy ttl) fun _ => trivial)
  | redeem link email => exact counting_bookless (.bind (redeem_bookless link email) fun _ => trivial)
  | revokeInvite invite reason actor =>
    refine counting_bookless (.bind (.bind (all_query trivial) fun n => ?_) fun _ => trivial)
    split
    · trivial
    · exact audit_bookless
  | revokePendingForEmail email reason actor =>
    refine counting_bookless (.bind (.bind (all_query trivial) fun n => ?_) fun _ => trivial)
    split
    · exact .bind audit_bookless fun _ => trivial
    · trivial
  | sweepExpired => exact counting_bookless (.bind (all_query trivial) fun _ => trivial)
  | setSignupPolicy enabled note officer =>
    exact counting_bookless (.bind (.bind (all_step trivial) fun _ => .bind (all_query trivial) fun _ =>
      audit_bookless) fun _ => trivial)
  | revokeAccess user reason actor =>
    exact counting_bookless (.bind (revokeAccess_bookless reason actor) fun _ => trivial)
  | myDetails principal => exact counting_bookless (.bind (view_bookless _) fun _ => trivial)
  | updateMyDetails principal patch =>
    exact counting_bookless (.bind (updateMyDetails_bookless _ _) fun _ => trivial)
  | myAccessHistory principal limit => exact counting_bookless (.bind (all_query trivial) fun _ => trivial)
  | handle env => exact counting_bookless (.bind (handle_bookless env) fun _ => trivial)

theorem verb_counts (P : Portal) (t : PortalCall) : (t.verb P).Heeds (P.Counts t) [] := by
  cases t with
  | request request => exact serve_counts request
  | customer call => exact counting_bookless (customer_bookless call)
  | mintRecipient user email =>
    exact counting_bookless (.bind (.bind (all_ofExcept _) fun _ => .bind (all_step trivial) fun _ =>
      .bind all_lifetime fun _ => .bind audit_bookless fun _ => trivial) fun _ => trivial)

end

/-! ## The book of a run -/

/-- What an event wrote in the book. -/
def bookCall (ev : Event portalSig) : Option BookCall :=
  match ev.act with
  | .registerFailure key now => some (.registerFailure key now)
  | .reset key => some (.reset key)
  | _ => none

theorem book_exec (a : Act) (i : Env) (w : World) :
    (a.exec i w).2.book = (bookCall ⟨a, (a.exec i w).1⟩).toList.foldl AttemptBook.after w.book := by
  cases a <;> rfl

/-- The call counts a failure of the key. -/
def BookCall.strikes (key : String) : BookCall → Bool
  | .registerFailure k _ => k = key
  | .reset _ => false

def counted (key : String) (ev : Event portalSig) : Bool := ((bookCall ev).map (·.strikes key)).getD false

theorem counted_iff {key : String} {ev : Event portalSig} :
    counted key ev = true ↔ ∃ now, ev = ⟨.registerFailure key now, ()⟩ := by
  constructor
  · intro h
    obtain ⟨a, r⟩ := ev
    cases a with
    | registerFailure k now =>
      obtain rfl : k = key := of_decide_eq_true h
      exact ⟨now, rfl⟩
    | _ => cases h
  · rintro ⟨now, rfl⟩
    exact decide_eq_true rfl

theorem failuresSince_le (key : String) (calls : List BookCall) :
    (failuresSince key calls).length ≤ calls.countP (·.strikes key) := by
  have hfold : ∀ stamps : List Instant,
      (calls.foldl (noteCall key) stamps).length ≤ stamps.length + calls.countP (·.strikes key) := by
    induction calls with
    | nil => exact fun stamps => Nat.le_refl _
    | cons call calls ih =>
      intro stamps
      rw [List.foldl_cons, List.countP_cons]
      refine (ih _).trans ?_
      cases call with
      | registerFailure k now =>
        by_cases hk : k = key
        · simp only [noteCall, BookCall.strikes, hk, if_true, decide_true, List.length_append,
            List.length_singleton]
          omega
        · simp [noteCall, BookCall.strikes, hk]
      | reset k => by_cases hk : k = key <;> simp [noteCall, BookCall.strikes, hk]
  exact (hfold []).trans_eq (Nat.zero_add _)

theorem countP_le_one {γ : Type} {f : γ → Bool} {l : List γ}
    (h : ∀ before x after, l = before ++ x :: after → f x = true → ∀ y ∈ before, f y = false) :
    l.countP f ≤ 1 := by
  induction l using List.reverseRecOn with
  | nil => exact Nat.zero_le 1
  | append_singleton l x ih =>
    rw [List.countP_append, List.countP_singleton]
    cases hx : f x with
    | false =>
      refine ih fun before y after hl hy => h before y (after ++ [x]) ?_ hy
      rw [hl, List.append_assoc, List.cons_append]
    | true =>
      have hnone : l.countP f = 0 := List.countP_eq_zero.mpr fun y hy => by simp [h l x [] rfl hx y hy]
      rw [hnone]
      exact Nat.le_refl 1

section
variable {P : Portal} {calls : List (Call portalSig Halt Reply PortalCall)}
  (hheeded : ∀ c ∈ calls, c.Heeded (P.Counts c.tag))
include hheeded

/-- Every failure counted was counted by a call of its own. -/
theorem counted_calls (key : String) :
    (calls.flatMap fun c => c.past.filterMap bookCall).countP (·.strikes key) ≤
      calls.countP fun c => c.past.any (counted key) := by
  rw [List.countP_flatMap, ← sum_map_toNat]
  refine List.sum_le_sum fun c hc => ?_
  show (c.past.filterMap bookCall).countP (·.strikes key) ≤ _
  rw [List.countP_filterMap]
  show c.past.countP (counted key) ≤ _
  cases hany : c.past.any (counted key) with
  | false =>
    rw [List.countP_eq_zero.mpr fun ev hev => by simpa using List.any_eq_false.mp hany ev hev]
    exact Nat.le_refl 0
  | true =>
    refine countP_le_one fun before ev after hpast hev y hy => ?_
    obtain ⟨now, rfl⟩ := counted_iff.mp hev
    apply Bool.eq_false_iff.mpr
    intro hcounted
    obtain ⟨earlier, rfl⟩ := counted_iff.mp hcounted
    exact (hheeded c hc before _ after hpast).2.2.2 earlier hy

theorem counted_failed {key : String} {c : Call portalSig Halt Reply PortalCall} (hc : c ∈ calls)
    (h : c.past.any (counted key) = true) : key ∈ P.keys c.tag ∧ P.Failed c.tag c.past := by
  obtain ⟨ev, hev, hcounted⟩ := List.any_eq_true.mp h
  obtain ⟨now, rfl⟩ := counted_iff.mp hcounted
  obtain ⟨before, hsub, hkey, -, hfailed, -⟩ := (hheeded c hc).required hev
  exact ⟨hkey, hfailed.later hsub⟩

end

theorem locked_failures {key : String} {calls : List BookCall} {e : FailureEntry}
    (he : (AttemptBook.empty.play calls).entries key = some e) (hlocked : e.lockedUntil ≠ none) :
    5 ≤ (failuresSince key calls).length := by
  rw [AttemptBook.play_entries] at he
  obtain ⟨last, -, rfl⟩ := Option.map_eq_some_iff.mp he
  by_contra hfew
  have hlt : ((failuresSince key calls).length : Int) < 5 := by omega
  have hwrap : wrapI32 (failuresSince key calls).length = (failuresSince key calls).length :=
    wrapI32_eq_self.mpr ⟨by omega, by omega⟩
  apply hlocked
  rw [hwrap]
  exact if_pos hlt

/-- **Earned lockouts.** In every run from an empty book, the book is the replay
of what the calls wrote in it; each call counts a failure of its own keys once,
after it was told why it fails, and resets them only after the verifier said
yes; and a locked key was named by five calls that failed. -/
theorem lockouts_earned (P : Portal) (pool : PortalPool) (hcalls : pool.calls = [])
    (hbook : pool.world.book = .empty) (ms : List PortalMove) :
    (∃ log : List BookCall,
      log.Perm ((pool.play (PortalCall.verb P) ms).calls.flatMap fun c => c.past.filterMap bookCall) ∧
      (pool.play (PortalCall.verb P) ms).world.book = AttemptBook.empty.play log) ∧
    (∀ c ∈ (pool.play (PortalCall.verb P) ms).calls, ∀ before ev after, c.past = before ++ ev :: after →
      P.Counts c.tag before ev.act) ∧
    ∀ key e, (pool.play (PortalCall.verb P) ms).world.book.entries key = some e → e.lockedUntil ≠ none →
      ∃ failed : List (Call portalSig Halt Reply PortalCall),
        failed.Sublist (pool.play (PortalCall.verb P) ms).calls ∧ 5 ≤ failed.length ∧
        ∀ c ∈ failed, key ∈ P.keys c.tag ∧ P.Failed c.tag c.past := by
  have hheeded := Pool.play_heeds (M := portalMachine) (PortalCall.verb P) (verb_counts P) hcalls ms
  obtain ⟨log, hlog, hreplay⟩ := Pool.play_log (M := portalMachine) (PortalCall.verb P) bookCall book_exec hcalls ms
  rw [hbook] at hreplay
  change _ = AttemptBook.empty.play log at hreplay
  refine ⟨⟨log, hlog, hreplay⟩, hheeded, fun key e he hlocked => ?_⟩
  refine ⟨(pool.play (PortalCall.verb P) ms).calls.filter fun c => c.past.any (counted key),
    List.filter_sublist, ?_, fun c hc => ?_⟩
  · rw [← List.countP_eq_length_filter]
    calc 5 ≤ (failuresSince key log).length := locked_failures (hreplay ▸ he) hlocked
      _ ≤ log.countP (·.strikes key) := failuresSince_le key log
      _ = _ := hlog.countP_eq _
      _ ≤ _ := counted_calls hheeded key
  · obtain ⟨hc, hany⟩ := List.mem_filter.mp hc
    exact counted_failed hheeded hc hany

namespace Probe

/-- Five logins with a wrong password, two seconds apart. -/
def guesses : List PortalMove :=
  (List.range 5).flatMap fun n => .start (.request (.login email "guess" "::1")) ::
    List.replicate 10 (.step n { env with now := now + seconds (2 * n), verdict := some (.ok false) })

end Probe

theorem lockouts_earned_probe :
    ∃ failed : List (Call portalSig Halt Reply PortalCall), failed.Sublist
      ((Probe.stage Probe.enrolled).play (PortalCall.verb Probe.portal) Probe.guesses).calls ∧
      5 ≤ failed.length ∧
      ∀ c ∈ failed, ipKey "::1" ∈ Probe.portal.keys c.tag ∧ Probe.portal.Failed c.tag c.past := by
  have hlocked : (((Probe.stage Probe.enrolled).play (PortalCall.verb Probe.portal)
      Probe.guesses).world.book.entries (ipKey "::1")).any (fun e => e.lockedUntil.isSome) = true := by
    decide +kernel
  cases he : ((Probe.stage Probe.enrolled).play (PortalCall.verb Probe.portal)
      Probe.guesses).world.book.entries (ipKey "::1") with
  | none =>
    rw [he] at hlocked
    cases hlocked
  | some e =>
    rw [he] at hlocked
    refine (lockouts_earned Probe.portal (Probe.stage Probe.enrolled) rfl rfl Probe.guesses).2.2 _ e he ?_
    intro hnone
    rw [Option.any_some, hnone] at hlocked
    cases hlocked

end BackbonePortal
